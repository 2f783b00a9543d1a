import GraphLoom.Explainability.Store

/-!
# The contract of the in-memory store

`call_effect` says once what a call can do to the store: fail, read, create a run, append a whole
batch, complete a run or delete one.  Every part of the contract follows by cases on the effect, and
holds after every finite sequence of calls (`inMemoryExplainabilityStore_keeps_contract`).
-/

namespace GraphLoom.Explainability

open Foundation

variable {ε : Type} {run : ExplainabilityRun} {id : ExplainabilityRunId}

namespace MemoryState

/-! ### Lookups -/

@[simp]
theorem run_new (id : ExplainabilityRunId) : (new : MemoryState ε).run id = none :=
  AList.lookup_empty id

@[simp]
theorem eventsOf_new (id : ExplainabilityRunId) : (new : MemoryState ε).eventsOf id = [] := by
  rw [eventsOf, new, AList.lookup_empty, Option.getD_none]

theorem mem_runs_iff {s : MemoryState ε} : id ∈ s.runs ↔ ∃ run, s.run id = some run := by
  rw [← AList.lookup_isSome, Option.isSome_iff_exists, run]

theorem not_mem_runs_iff {s : MemoryState ε} : id ∉ s.runs ↔ s.run id = none :=
  AList.lookup_eq_none.symm

/-- The stored runs are the values of the map. -/
theorem mem_values_iff {s : MemoryState ε} :
    run ∈ s.runs.entries.map Sigma.snd ↔ ∃ id, s.run id = some run := by
  rw [List.mem_map]
  constructor
  · rintro ⟨⟨id, r⟩, hmem, rfl⟩
    exact ⟨id, AList.mem_lookup_iff.mpr hmem⟩
  · rintro ⟨id, hrun⟩
    exact ⟨⟨id, run⟩, AList.mem_lookup_iff.mp hrun, rfl⟩

/-- The record of a run after a run is stored. -/
theorem run_insert (s : MemoryState ε) (id id' : ExplainabilityRunId) (run : ExplainabilityRun)
    (events : AList fun _ : ExplainabilityRunId => List (ExplainabilityEnvelope ε)) :
    (MemoryState.mk (s.runs.insert id run) events).run id' =
      if id' = id then some run else s.run id' := by
  unfold MemoryState.run
  split
  · next h => rw [h, AList.lookup_insert]
  · next h => exact AList.lookup_insert_ne h

/-- The events of a run after the events of a run are stored. -/
theorem eventsOf_insert (s : MemoryState ε) (id id' : ExplainabilityRunId)
    (events : List (ExplainabilityEnvelope ε))
    (runs : AList fun _ : ExplainabilityRunId => ExplainabilityRun) :
    (MemoryState.mk runs (s.events.insert id events)).eventsOf id' =
      if id' = id then events else s.eventsOf id' := by
  unfold eventsOf
  split
  · next h => rw [h, AList.lookup_insert, Option.getD_some]
  · next h => rw [AList.lookup_insert_ne h]

@[simp]
theorem eventsOf_mk (s : MemoryState ε) (id : ExplainabilityRunId)
    (runs : AList fun _ : ExplainabilityRunId => ExplainabilityRun) :
    (MemoryState.mk runs s.events).eventsOf id = s.eventsOf id := rfl

theorem run_erase (s : MemoryState ε) (id id' : ExplainabilityRunId)
    (events : AList fun _ : ExplainabilityRunId => List (ExplainabilityEnvelope ε)) :
    (MemoryState.mk (s.runs.erase id) events).run id' = if id' = id then none else s.run id' := by
  unfold MemoryState.run
  split
  · next h => rw [h, AList.lookup_erase]
  · next h => exact AList.lookup_erase_ne h

theorem eventsOf_erase (s : MemoryState ε) (id id' : ExplainabilityRunId)
    (runs : AList fun _ : ExplainabilityRunId => ExplainabilityRun) :
    (MemoryState.mk runs (s.events.erase id)).eventsOf id' =
      if id' = id then [] else s.eventsOf id' := by
  unfold eventsOf
  split
  · next h => rw [h, AList.lookup_erase, Option.getD_none]
  · next h => rw [AList.lookup_erase_ne h]

/-! ### What one operation does -/

theorem validateCreateRun_eq_ok : validateCreateRun run = .ok () ↔
      run.eventCount = 0 ∧ run.completedAt = none ∧ isTerminal run.status = false ∧
      (run.kind = .query ∨ run.queryMethod = none) := by
  unfold validateCreateRun
  split_ifs with hcount hcompleted hterminal hmethod
  · simp [hcount]
  · simp [Option.isSome_iff_ne_none.mp hcompleted]
  · simp [hterminal]
  · simp [hmethod.1, Option.isSome_iff_ne_none.mp hmethod.2]
  · rw [not_and_or, not_not, Option.not_isSome_iff_eq_none] at hmethod
    simp [not_not.mp hcount, Option.not_isSome_iff_eq_none.mp hcompleted,
      Bool.not_eq_true _ ▸ hterminal, hmethod]

/-- The batch loop accepts exactly the batches that carry the next sequences in order. -/
theorem appendLoop_eq_ok {runId : ExplainabilityRunId} {n m : ℕ}
    {pending events all : List (ExplainabilityEnvelope ε)} :
    appendLoop runId n pending events = .ok (m, all) ↔
      all = pending ++ events ∧ m = n + events.length ∧
      events.map (·.sequence) = List.range' (n + 1) events.length ∧
      (events = [] ∨ m ≤ u64Max) := by
  induction events generalizing n pending with
  | nil =>
    rw [appendLoop]
    simp only [Except.ok.injEq, Prod.mk.injEq, List.append_nil, List.length_nil, Nat.add_zero,
      List.map_nil, List.range'_zero, true_or, and_true]
    exact ⟨fun ⟨hm, ha⟩ => ⟨ha.symm, hm.symm⟩, fun ⟨ha, hm⟩ => ⟨hm.symm, ha.symm⟩⟩
  | cons e rest ih =>
    rw [appendLoop]
    cases hadd : checkedAdd n 1 with
    | none =>
      have hbig : ¬ n + 1 ≤ u64Max := by
        intro h
        rw [checkedAdd, ite_cond_eq_true _ _ (eq_true h)] at hadd
        cases hadd
      simp only [List.length_cons, List.map_cons, List.range'_succ, reduceCtorEq, false_iff]
      rintro ⟨-, hm, -, h | h⟩
      · cases h
      · omega
    | some expected =>
      obtain ⟨hle, rfl⟩ := checkedAdd_eq_some.mp hadd
      simp only [List.length_cons, List.map_cons, List.range'_succ, List.cons.injEq, reduceCtorEq,
        false_or]
      by_cases hseq : e.sequence = n + 1
      · rw [ite_cond_eq_false _ _ (eq_false (not_not.mpr hseq)), ih]
        simp only [List.append_assoc, List.cons_append, List.nil_append, hseq, true_and]
        constructor
        · rintro ⟨ha, hm, hs, hr⟩
          refine ⟨ha, by omega, hs, ?_⟩
          rcases hr with rfl | hr
          · simpa [hm] using hle
          · exact hr
        · rintro ⟨ha, hm, hs, hr⟩
          exact ⟨ha, by omega, hs, Or.inr hr⟩
      · rw [ite_cond_eq_true _ _ (eq_true hseq)]
        simp [hseq]

end MemoryState

/-- What one call can do: `Effect s call result s'` when it takes `s` to `s'` with that result. -/
inductive Effect (s : MemoryState ε) : StoreCall ε → StoreResult ε → MemoryState ε → Prop
  | failed (call : StoreCall ε) (error : ExplainabilityStoreError) :
      Effect s call (.error error) s
  | gotRun (id : ExplainabilityRunId) : Effect s (.getRun id) (.ok (.run (s.run id))) s
  | listedRuns (query : RunQuery) (runs : List ExplainabilityRun) :
      Effect s (.listRuns query) (.ok (.runs runs)) s
  | loadedEvents (id : ExplainabilityRunId) (query : EventQuery)
      (events : List (ExplainabilityEnvelope ε)) :
      Effect s (.loadEvents id query) (.ok (.events events)) s
  | emptyBatch : Effect s (.appendEvents []) (.ok .done) s
  | repeatedCompletion (completion : RunCompletion) :
      Effect s (.completeRun completion) (.ok .done) s
  | created (run : ExplainabilityRun) (valid : validateCreateRun run = .ok ())
      (fresh : s.run run.runId = none) :
      Effect s (.createRun run) (.ok .done) { s with runs := s.runs.insert run.runId run }
  | appended (id : ExplainabilityRunId) (run : ExplainabilityRun)
      (batch : List (ExplainabilityEnvelope ε)) (stored : s.run id = some run)
      (open_ : isTerminal run.status = false) (owned : ∀ e ∈ batch, e.record.runId = id)
      (sequences : batch.map (·.sequence) = List.range' (run.eventCount + 1) batch.length)
      (bounded : run.eventCount + batch.length ≤ u64Max) :
      Effect s (.appendEvents batch) (.ok .done)
        { runs := s.runs.insert id { run with eventCount := run.eventCount + batch.length }
          events := s.events.insert id (s.eventsOf id ++ batch) }
  | completed (completion : RunCompletion) (run : ExplainabilityRun)
      (terminal : isTerminal completion.status = true)
      (stored : s.run completion.runId = some run) (open_ : isTerminal run.status = false)
      (notBefore : run.startedAt ≤ completion.completedAt) :
      Effect s (.completeRun completion) (.ok .done)
        { s with
          runs := s.runs.insert completion.runId
            { run with
              status := completion.status
              completedAt := some completion.completedAt } }
  | deleted (id : ExplainabilityRunId) :
      Effect s (.deleteRun id) (.ok .done)
        { runs := s.runs.erase id, events := s.events.erase id }

namespace MemoryState

theorem createRun_effect (s : MemoryState ε) (run : ExplainabilityRun) :
    Effect s (.createRun run) (s.call (.createRun run)).1 (s.call (.createRun run)).2 := by
  simp only [call, createRun]
  split
  · exact .failed _ _
  · next h =>
    split
    · exact .failed _ _
    · next hfresh => exact .created run h (not_mem_runs_iff.mp hfresh)

theorem appendEvents_effect (s : MemoryState ε) (events : List (ExplainabilityEnvelope ε)) :
    Effect s (.appendEvents events) (s.call (.appendEvents events)).1
      (s.call (.appendEvents events)).2 := by
  simp only [call, appendEvents]
  split
  · exact .emptyBatch
  · next first rest =>
    split
    · exact .failed _ _
    · next hsame =>
      have howned : ∀ e ∈ first :: rest, e.record.runId = first.record.runId := by
        intro e he
        simpa using List.find?_eq_none.mp hsame e he
      split
      · exact .failed _ _
      · next run hrun =>
        split
        · exact .failed _ _
        · next hopen =>
          split
          · exact .failed _ _
          · next n pending hloop =>
            obtain ⟨rfl, rfl, hseq, hmax⟩ := appendLoop_eq_ok.mp hloop
            exact .appended _ run _ hrun (by simpa using hopen) howned hseq
              (hmax.resolve_left (List.cons_ne_nil _ _))

theorem completeRun_effect (s : MemoryState ε) (completion : RunCompletion) :
    Effect s (.completeRun completion) (s.call (.completeRun completion)).1
      (s.call (.completeRun completion)).2 := by
  simp only [call, completeRun]
  split
  · exact .failed _ _
  · next hterminal =>
    split
    · exact .failed _ _
    · next run hrun =>
      split
      · exact .failed _ _
      · next htime =>
        split
        · split
          · exact .repeatedCompletion _
          · exact .failed _ _
        · next hopen =>
          rw [not_or] at hopen
          exact .completed completion run (by simpa using hterminal) hrun
            (by simpa using hopen.2) (not_lt.mp htime)

/-- Every call has one of the listed effects. -/
theorem call_effect (s : MemoryState ε) (c : StoreCall ε) :
    Effect s c (s.call c).1 (s.call c).2 := by
  cases c with
  | createRun run => exact createRun_effect s run
  | appendEvents events => exact appendEvents_effect s events
  | completeRun completion => exact completeRun_effect s completion
  | getRun id => exact .gotRun id
  | listRuns query =>
    simp only [call, listRuns]
    split
    · exact .failed _ _
    · exact .listedRuns _ _
  | loadEvents id query =>
    simp only [call, loadEvents]
    split
    · exact .failed _ _
    · split
      · exact .loadedEvents _ _ _
      · exact .failed _ _
  | deleteRun id => exact .deleted id

/-! ### The contract -/

/-- What the store promises about its runs and events at every moment. -/
structure Contract (s : MemoryState ε) : Prop where
  keyed : ∀ id run, s.run id = some run → run.runId = id
  eventCount : ∀ id run, s.run id = some run → run.eventCount = (s.eventsOf id).length
  sequences : ∀ id, (s.eventsOf id).map (·.sequence) = List.range' 1 (s.eventsOf id).length
  owned : ∀ id, ∀ e ∈ s.eventsOf id, e.record.runId = id
  eventsOfRun : ∀ id, s.eventsOf id ≠ [] → ∃ run, s.run id = some run
  completed : ∀ id run, s.run id = some run →
    (run.completedAt.isSome = true ↔ isTerminal run.status = true)
  completedAfterStart : ∀ id run t, s.run id = some run → run.completedAt = some t →
    run.startedAt ≤ t

theorem contract_new : (new : MemoryState ε).Contract where
  keyed := by simp
  eventCount := by simp
  sequences := by simp
  owned := by simp
  eventsOfRun := by simp
  completed := by simp
  completedAfterStart := by simp

variable {c : StoreCall ε}

namespace Contract

variable {s : MemoryState ε} (hs : s.Contract)
include hs

/-- A run that is not stored has no events. -/
theorem eventsOf_eq_nil (h : s.run id = none) : s.eventsOf id = [] := by
  by_contra hne
  obtain ⟨run, hrun⟩ := hs.eventsOfRun id hne
  rw [h] at hrun
  cases hrun

/-- No two stored runs have the same identifier. -/
theorem nodup_runIds : ((s.runs.entries.map Sigma.snd).map (·.runId.asStr)).Nodup := by
  have hkeys : ((s.runs.entries.map Sigma.fst).map Identifier.asStr).Nodup :=
    (List.nodup_map_iff Identifier.asStr_injective).mpr s.runs.nodupKeys
  rw [List.map_map] at hkeys ⊢
  refine (List.map_congr_left fun entry hentry => ?_) ▸ hkeys
  have hrun : s.run entry.1 = some entry.2 := AList.mem_lookup_iff.mpr hentry
  rw [Function.comp_apply, Function.comp_apply, hs.keyed _ _ hrun]

theorem created (valid : validateCreateRun run = .ok ()) (fresh : s.run run.runId = none) :
    ({ s with runs := s.runs.insert run.runId run } : MemoryState ε).Contract := by
  obtain ⟨hcount, hnotCompleted, hopen, -⟩ := validateCreateRun_eq_ok.mp valid
  refine ⟨?_, ?_, ?_, ?_, ?_, ?_, ?_⟩
  · intro id stored h
    rw [run_insert] at h
    split at h
    · next hid => rw [← Option.some.inj h, hid]
    · exact hs.keyed id stored h
  · intro id stored h
    rw [run_insert] at h
    split at h
    · next hid =>
      rw [← Option.some.inj h, hcount, hid, eventsOf_mk, hs.eventsOf_eq_nil fresh, List.length_nil]
    · exact hs.eventCount id stored h
  · exact hs.sequences
  · exact hs.owned
  · intro id h
    obtain ⟨stored, hstored⟩ := hs.eventsOfRun id h
    rw [run_insert]
    split
    · exact ⟨run, rfl⟩
    · exact ⟨stored, hstored⟩
  · intro id stored h
    rw [run_insert] at h
    split at h
    · rw [← Option.some.inj h, hnotCompleted, hopen]
      simp
    · exact hs.completed id stored h
  · intro id stored t h ht
    rw [run_insert] at h
    split at h
    · rw [← Option.some.inj h, hnotCompleted] at ht
      cases ht
    · exact hs.completedAfterStart id stored t h ht

theorem appended {batch : List (ExplainabilityEnvelope ε)} (stored : s.run id = some run)
    (owned : ∀ e ∈ batch, e.record.runId = id)
    (sequences : batch.map (·.sequence) = List.range' (run.eventCount + 1) batch.length) :
    ({ runs := s.runs.insert id { run with eventCount := run.eventCount + batch.length }
       events := s.events.insert id (s.eventsOf id ++ batch) } : MemoryState ε).Contract := by
  have hcount := hs.eventCount id run stored
  refine ⟨?_, ?_, ?_, ?_, ?_, ?_, ?_⟩
  · intro id' stored' h
    rw [run_insert] at h
    split at h
    · next hid => rw [← Option.some.inj h, hid]; exact hs.keyed id run stored
    · exact hs.keyed id' stored' h
  · intro id' stored' h
    rw [run_insert] at h
    rw [eventsOf_insert]
    split at h
    · next hid =>
      rw [ite_cond_eq_true _ _ (eq_true hid), ← Option.some.inj h, List.length_append, hcount]
    · next hid =>
      rw [ite_cond_eq_false _ _ (eq_false hid)]
      exact hs.eventCount id' stored' h
  · intro id'
    rw [eventsOf_insert]
    split
    · rw [List.map_append, sequences, hs.sequences id, hcount, List.length_append,
        Nat.add_comm (s.eventsOf id).length 1, List.range'_append_1]
    · exact hs.sequences id'
  · intro id' e he
    rw [eventsOf_insert] at he
    split at he
    · next hid =>
      rw [hid]
      exact (List.mem_append.mp he).elim (hs.owned id e) (owned e)
    · exact hs.owned id' e he
  · intro id' h
    rw [run_insert]
    rw [eventsOf_insert] at h
    split
    · exact ⟨_, rfl⟩
    · next hid =>
      rw [ite_cond_eq_false _ _ (eq_false hid)] at h
      exact hs.eventsOfRun id' h
  · intro id' stored' h
    rw [run_insert] at h
    split at h
    · rw [← Option.some.inj h]
      exact hs.completed id run stored
    · exact hs.completed id' stored' h
  · intro id' stored' t h ht
    rw [run_insert] at h
    split at h
    · rw [← Option.some.inj h] at ht ⊢
      exact hs.completedAfterStart id run t stored ht
    · exact hs.completedAfterStart id' stored' t h ht

theorem completeRun {completion : RunCompletion} (terminal : isTerminal completion.status = true)
    (stored : s.run completion.runId = some run)
    (notBefore : run.startedAt ≤ completion.completedAt) :
    ({ s with
        runs := s.runs.insert completion.runId
          { run with
            status := completion.status
            completedAt := some completion.completedAt } } : MemoryState ε).Contract := by
  refine ⟨?_, ?_, hs.sequences, hs.owned, ?_, ?_, ?_⟩
  · intro id stored' h
    rw [run_insert] at h
    split at h
    · next hid => rw [← Option.some.inj h, hid]; exact hs.keyed _ run stored
    · exact hs.keyed id stored' h
  · intro id stored' h
    rw [run_insert] at h
    split at h
    · next hid => rw [← Option.some.inj h, hid]; exact hs.eventCount _ run stored
    · exact hs.eventCount id stored' h
  · intro id h
    rw [run_insert]
    split
    · exact ⟨_, rfl⟩
    · exact hs.eventsOfRun id h
  · intro id stored' h
    rw [run_insert] at h
    split at h
    · rw [← Option.some.inj h]
      simpa using terminal
    · exact hs.completed id stored' h
  · intro id stored' t h ht
    rw [run_insert] at h
    split at h
    · rw [← Option.some.inj h] at ht ⊢
      rw [← Option.some.inj ht]
      exact notBefore
    · exact hs.completedAfterStart id stored' t h ht

theorem deleted (id : ExplainabilityRunId) :
    ({ runs := s.runs.erase id, events := s.events.erase id } : MemoryState ε).Contract := by
  refine ⟨?_, ?_, ?_, ?_, ?_, ?_, ?_⟩
  · intro id' run h
    rw [run_erase] at h
    split at h
    · cases h
    · exact hs.keyed id' run h
  · intro id' run h
    rw [run_erase] at h
    rw [eventsOf_erase]
    split at h
    · cases h
    · next hid =>
      rw [ite_cond_eq_false _ _ (eq_false hid)]
      exact hs.eventCount id' run h
  · intro id'
    rw [eventsOf_erase]
    split
    · rfl
    · exact hs.sequences id'
  · intro id' e he
    rw [eventsOf_erase] at he
    split at he
    · cases he
    · exact hs.owned id' e he
  · intro id' h
    rw [eventsOf_erase] at h
    rw [run_erase]
    split
    · next hid =>
      rw [ite_cond_eq_true _ _ (eq_true hid)] at h
      exact absurd rfl h
    · next hid =>
      rw [ite_cond_eq_false _ _ (eq_false hid)] at h
      exact hs.eventsOfRun id' h
  · intro id' run h
    rw [run_erase] at h
    split at h
    · cases h
    · exact hs.completed id' run h
  · intro id' run t h ht
    rw [run_erase] at h
    split at h
    · cases h
    · exact hs.completedAfterStart id' run t h ht

/-- Every effect preserves the contract. -/
theorem effect {r : StoreResult ε} {s' : MemoryState ε} (h : Effect s c r s') : s'.Contract := by
  cases h with
  | failed | gotRun | listedRuns | loadedEvents | emptyBatch | repeatedCompletion => exact hs
  | created run valid fresh => exact hs.created valid fresh
  | appended id run batch stored open_ owned sequences bounded =>
    exact hs.appended stored owned sequences
  | completed completion run terminal stored open_ notBefore =>
    exact hs.completeRun terminal stored notBefore
  | deleted id => exact hs.deleted id

/-- Every call preserves the contract. -/
theorem call (c : StoreCall ε) : (s.call c).2.Contract :=
  hs.effect (call_effect s c)

end Contract

/-! ### What calls leave alone -/

/-- A call that fails leaves the store as it was. -/
theorem call_of_error {s : MemoryState ε} {e : ExplainabilityStoreError}
    (h : (s.call c).1 = .error e) : (s.call c).2 = s := by
  have heffect := call_effect s c
  rw [h] at heffect
  generalize (s.call c).2 = s' at heffect
  cases heffect
  rfl

/-- A batch is appended whole, to the runs it names, or not at all. -/
theorem appendEvents_all_or_none (s : MemoryState ε) (batch : List (ExplainabilityEnvelope ε)) :
    ((s.call (.appendEvents batch)).1 = .ok .done ∧
      ∀ id, (s.call (.appendEvents batch)).2.eventsOf id =
        s.eventsOf id ++ batch.filter fun e => e.record.runId = id) ∨
    ∃ e, (s.call (.appendEvents batch)).1 = .error e ∧ (s.call (.appendEvents batch)).2 = s := by
  have heffect := call_effect s (.appendEvents batch)
  generalize (s.call (.appendEvents batch)).1 = r at heffect
  generalize (s.call (.appendEvents batch)).2 = s' at heffect
  cases heffect with
  | failed _ e => exact Or.inr ⟨e, rfl, rfl⟩
  | emptyBatch => exact Or.inl ⟨rfl, fun id => by simp⟩
  | appended id run _ stored open_ owned sequences bounded =>
    refine Or.inl ⟨rfl, fun id' => ?_⟩
    rw [eventsOf_insert]
    split
    · next hid =>
      have hall : batch.filter (fun e => e.record.runId = id') = batch := by
        rw [List.filter_eq_self]
        intro e he
        simpa [hid] using owned e he
      rw [hall, hid]
    · next hid =>
      have hnone : batch.filter (fun e => e.record.runId = id') = [] := by
        rw [List.filter_eq_nil_iff]
        intro e he
        simpa [owned e he] using Ne.symm hid
      rw [hnone, List.append_nil]

/-- A call other than its deletion leaves a terminal run as it is. -/
theorem call_terminal {s : MemoryState ε} (stored : s.run id = some run)
    (terminal : isTerminal run.status = true) (hc : c ≠ .deleteRun id) :
    (s.call c).2.run id = some run ∧ (s.call c).2.eventsOf id = s.eventsOf id := by
  have heffect := call_effect s c
  generalize (s.call c).1 = r at heffect
  generalize (s.call c).2 = s' at heffect
  -- the effects that change a run need it absent, or open, or deleted
  have hother : ∀ id' run', s.run id' = some run' → isTerminal run'.status = false → id ≠ id' := by
    rintro id' run' hrun' hopen rfl
    rw [stored] at hrun'
    rw [← Option.some.inj hrun', terminal] at hopen
    cases hopen
  cases heffect with
  | failed | gotRun | listedRuns | loadedEvents | emptyBatch | repeatedCompletion =>
    exact ⟨stored, rfl⟩
  | created run' valid fresh =>
    have hid : id ≠ run'.runId := by
      rintro rfl
      rw [fresh] at stored
      cases stored
    exact ⟨by rw [run_insert, ite_cond_eq_false _ _ (eq_false hid), stored], rfl⟩
  | appended id' run' batch stored' open_ =>
    have hid := hother id' run' stored' open_
    rw [run_insert, eventsOf_insert, ite_cond_eq_false _ _ (eq_false hid),
      ite_cond_eq_false _ _ (eq_false hid)]
    exact ⟨stored, rfl⟩
  | completed completion run' _ stored' open_ =>
    have hid := hother _ run' stored' open_
    exact ⟨by rw [run_insert, ite_cond_eq_false _ _ (eq_false hid), stored], rfl⟩
  | deleted id' =>
    have hid : id ≠ id' := fun h => hc (h ▸ rfl)
    rw [run_erase, eventsOf_erase, ite_cond_eq_false _ _ (eq_false hid),
      ite_cond_eq_false _ _ (eq_false hid)]
    exact ⟨stored, rfl⟩

end MemoryState

/-! ### Runs of the store -/

/-- The contract holds after every finite sequence of calls. -/
theorem inMemoryExplainabilityStore_contract (calls : List (StoreCall ε)) :
    ((inMemoryExplainabilityStore ε).run calls).Contract :=
  Machine.invariant_run _ MemoryState.contract_new (fun _ c hs => hs.call c) calls

/-- A terminal run and its events stay as they are until the run is deleted. -/
theorem inMemoryExplainabilityStore_terminal {s : MemoryState ε} (stored : s.run id = some run)
    (terminal : isTerminal run.status = true) (calls : List (StoreCall ε))
    (kept : .deleteRun id ∉ calls) :
    ((inMemoryExplainabilityStore ε).runFrom s calls).run id = some run ∧
    ((inMemoryExplainabilityStore ε).runFrom s calls).eventsOf id = s.eventsOf id := by
  refine Machine.invariant_runFrom (inMemoryExplainabilityStore ε)
    (P := fun s' => s'.run id = some run ∧ s'.eventsOf id = s.eventsOf id)
    (fun c => c ≠ .deleteRun id) ?_ ⟨stored, rfl⟩ calls (fun c hc h => kept (h ▸ hc))
  rintro s' c hc ⟨hrun, hevents⟩
  obtain ⟨hrun', hevents'⟩ := MemoryState.call_terminal hrun terminal hc
  exact ⟨hrun', hevents'.trans hevents⟩

/-- **The in-memory store keeps its contract.**  After any finite sequence of calls the contract
holds, a terminal run and its events stay fixed along every continuation that does not delete it, a
batch is appended whole or not at all, and a failing call changes nothing. -/
theorem inMemoryExplainabilityStore_keeps_contract (calls : List (StoreCall ε)) :
    let s := (inMemoryExplainabilityStore ε).run calls
    s.Contract ∧
    (∀ id run later, s.run id = some run → isTerminal run.status = true →
      StoreCall.deleteRun id ∉ later →
      ((inMemoryExplainabilityStore ε).runFrom s later).run id = some run ∧
      ((inMemoryExplainabilityStore ε).runFrom s later).eventsOf id = s.eventsOf id) ∧
    (∀ batch,
      ((s.call (.appendEvents batch)).1 = .ok .done ∧
        ∀ id, (s.call (.appendEvents batch)).2.eventsOf id =
          s.eventsOf id ++ batch.filter fun e => e.record.runId = id) ∨
      ∃ e, (s.call (.appendEvents batch)).1 = .error e ∧
        (s.call (.appendEvents batch)).2 = s) ∧
    ∀ c e, (s.call c).1 = .error e → (s.call c).2 = s :=
  ⟨inMemoryExplainabilityStore_contract calls,
    fun _ _ later stored terminal kept =>
      inMemoryExplainabilityStore_terminal stored terminal later kept,
    fun batch => MemoryState.appendEvents_all_or_none _ batch,
    fun _ _ h => MemoryState.call_of_error h⟩

end GraphLoom.Explainability
