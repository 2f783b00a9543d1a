import GraphLoom.Explainability.Equiv.Store
import GraphLoom.Explainability.Equiv.Timestamp
import GraphLoom.Foundation.Table

/-!
# The SQLite store answers as the in-memory store

`Corresponds` relates the tables to the maps: a run's row is the encoding of its record, and a run's
event rows decode to its events.  Corresponding stores answer every call alike and stay in
correspondence, as long as timestamps are canonical, sequences fit `i64` and events read back from
their text (`call_corresponds`), so they agree over every sequence of such calls
(`sqliteExplainabilityStore_agrees`).
-/

namespace GraphLoom.Explainability

open Foundation

variable {ε : Type} {codec : EventCodec ε}

/-! ### Codecs -/

@[simp]
theorem ExplainabilityRunKind.fromSqlText_toSqlText (kind : ExplainabilityRunKind) :
    fromSqlText kind.toSqlText = .ok kind := by
  cases kind <;> rfl

@[simp]
theorem ExplainabilityRunStatus.fromSqlText_toSqlText (status : ExplainabilityRunStatus) :
    fromSqlText status.toSqlText = .ok status := by
  cases status <;> rfl

@[simp]
theorem ExplainabilityQueryMethod.fromSqlText_toSqlText (method : ExplainabilityQueryMethod) :
    fromSqlText method.toSqlText = .ok method := by
  cases method <;> rfl

@[simp]
theorem ExplainabilityRunKind.toSqlText_inj {a b : ExplainabilityRunKind} :
    a.toSqlText = b.toSqlText ↔ a = b := by
  cases a <;> cases b <;> decide

@[simp]
theorem ExplainabilityRunStatus.toSqlText_inj {a b : ExplainabilityRunStatus} :
    a.toSqlText = b.toSqlText ↔ a = b := by
  cases a <;> cases b <;> decide

@[simp]
theorem ExplainabilityQueryMethod.toSqlText_inj {a b : ExplainabilityQueryMethod} :
    a.toSqlText = b.toSqlText ↔ a = b := by
  cases a <;> cases b <;> decide

theorem optionalDatetimeFromSqlText_map {t : Option DateTime} (h : ∀ x, t = some x → x.Canonical) :
    optionalDatetimeFromSqlText (t.map datetimeToSqlText) = .ok t := by
  cases t with
  | none => rfl
  | some x =>
    rw [Option.map_some, optionalDatetimeFromSqlText,
      DateTime.datetimeFromSqlText_toSqlText (h x rfl)]
    rfl

theorem except_mapError_ok {α β γ : Type} (f : β → γ) (a : α) :
    (Except.ok a : Except β α).mapError f = .ok a := rfl

/-! ### Runs and rows -/

/-- The row of a run. -/
def encodeRun (run : ExplainabilityRun) : RunRow :=
  { newRunRow run with
    completedAt := run.completedAt.map datetimeToSqlText
    eventCount := run.eventCount }

/-- A run whose row reads back to it, given a consistent lifecycle. -/
structure StorableRun (run : ExplainabilityRun) : Prop where
  startedAt : run.startedAt.Canonical
  completedAt : ∀ t, run.completedAt = some t → t.Canonical
  method : run.kind = .query ∨ run.queryMethod = none
  eventCount : run.eventCount ≤ i64Max

theorem sqliteIntegerToU64_natCast (n : ℕ) (field : String) :
    sqliteIntegerToU64 n field = .ok n := by
  simp [sqliteIntegerToU64]

theorem u64ToSqliteInteger_of_le {n : ℕ} (h : n ≤ i64Max) (field : String) :
    u64ToSqliteInteger n field = .ok n :=
  ite_cond_eq_true _ _ (eq_true h)

theorem queryMethod_mapM (method : Option ExplainabilityQueryMethod) :
    (method.map ExplainabilityQueryMethod.toSqlText).mapM
      ExplainabilityQueryMethod.fromSqlText = .ok method := by
  cases method with
  | none => rfl
  | some m => simp [Option.mapM_some]

variable {run : ExplainabilityRun}

/-- A storable run reads back from its row. -/
theorem runFromRow_encodeRun (h : StorableRun run)
    (hlifecycle : validatePersistedRunLifecycle run.status run.startedAt run.completedAt = .ok ()) :
    runFromRow (encodeRun run) = .ok run := by
  have hmethod : ¬ (run.kind ≠ .query ∧ run.queryMethod.isSome = true) := by
    rintro ⟨hkind, hsome⟩
    rw [h.method.resolve_left hkind] at hsome
    cases hsome
  simp only [runFromRow, encodeRun, newRunRow, Identifier.fromStr_asStr,
    ExplainabilityRunKind.fromSqlText_toSqlText, ExplainabilityRunStatus.fromSqlText_toSqlText,
    queryMethod_mapM, DateTime.datetimeFromSqlText_toSqlText h.startedAt,
    optionalDatetimeFromSqlText_map h.completedAt, sqliteIntegerToU64_natCast, except_mapError_ok,
    bind, Except.bind, hmethod, hlifecycle, ↓reduceIte]
  rfl

variable {id : ExplainabilityRunId}

/-- The stored lifecycle of a run that keeps the contract is consistent. -/
theorem MemoryState.Contract.lifecycle {m : MemoryState ε} (hm : m.Contract)
    (h : m.run id = some run) :
    validatePersistedRunLifecycle run.status run.startedAt run.completedAt = .ok () := by
  have hterminal : ¬ isTerminal run.status ≠ run.completedAt.isSome :=
    not_not.mpr (Bool.eq_iff_iff.mpr (hm.completed id run h).symm)
  unfold validatePersistedRunLifecycle
  rw [ite_cond_eq_false _ _ (eq_false hterminal)]
  cases hcompleted : run.completedAt with
  | none => rfl
  | some t =>
    have hnot : ¬ t < run.startedAt := not_lt.mpr (hm.completedAfterStart id run t h hcompleted)
    exact ite_cond_eq_false _ _ (eq_false hnot)

/-! ### Events and rows -/

/-- The event has a JSON text. -/
def EventCodec.Serialisable (codec : EventCodec ε) (event : ε) : Prop :=
  ∃ value tag text, codec.toValue event = some value ∧ codec.typeOf value = some tag ∧
    codec.toText value = some text

/-- The event has a JSON text, and the text reads back to the event. -/
def EventCodec.ReadsBack (codec : EventCodec ε) (event : ε) : Prop :=
  ∃ value tag text value', codec.toValue event = some value ∧ codec.typeOf value = some tag ∧
    codec.toText value = some text ∧ codec.parse text = some value' ∧
    codec.typeOf value' = some tag ∧ codec.fromValue value' = some event

/-- An envelope whose row reads back to it. -/
structure StorableEnvelope (codec : EventCodec ε) (e : ExplainabilityEnvelope ε) : Prop where
  sequence : e.sequence ≤ i64Max
  timestamp : e.record.timestamp.Canonical
  event : codec.ReadsBack e.record.event

theorem parentSpanId_mapM (parent : Option ExplainabilitySpanId) :
    (parent.map Identifier.asStr).mapM (fun text =>
      (Identifier.fromStr "explainability span id" text).mapError
        fun _ => SqliteStoreBackendError.invalidPersistedValue) = .ok parent := by
  cases parent with
  | none => rfl
  | some id => simp [Option.mapM_some, Except.mapError]

/-- A storable envelope is prepared, and its row reads back to it. -/
theorem prepareEvent_spec {e : ExplainabilityEnvelope ε} (h : StorableEnvelope codec e) :
    ∃ p, prepareEvent codec e = .ok p ∧ p.sequence = e.sequence ∧
      p.row.runId = e.record.runId.asStr ∧ p.row.sequence = e.sequence ∧
      envelopeFromRow codec p.row = .ok e := by
  obtain ⟨value, tag, text, value', hvalue, htag, htext, hparse, htag', hevent⟩ := h.event
  have hversion : ¬ e.schemaVersion ≠ explainabilitySchemaVersion := not_not.mpr e.supported
  have hversion' : ¬ (e.schemaVersion : ℤ) ≠ explainabilitySchemaVersion := by
    rw [e.supported]
    exact not_not.mpr rfl
  let row : EventRow :=
    { runId := e.record.runId.asStr
      sequence := e.sequence
      schemaVersion := e.schemaVersion
      spanId := e.record.spanId.asStr
      parentSpanId := e.record.parentSpanId.map Identifier.asStr
      timestamp := datetimeToSqlText e.record.timestamp
      eventType := tag
      payloadJson := text }
  refine ⟨⟨e.sequence, row⟩, ?_, rfl, rfl, rfl, ?_⟩
  · simp only [prepareEvent, hversion, hvalue, htag, htext, u64ToSqliteInteger_of_le h.sequence,
      Option.elim_some, bind, Except.bind, ↓reduceIte]
    rfl
  · simp only [envelopeFromRow, row, Identifier.fromStr_asStr, parentSpanId_mapM,
      DateTime.datetimeFromSqlText_toSqlText h.timestamp, sqliteIntegerToU64_natCast, hversion',
      hparse, htag', hevent, Option.elim_some, except_mapError_ok, bind, Except.bind, ↓reduceIte,
      not_true_eq_false, ne_eq]
    exact congrArg (Except.mapError fun _ => SqliteStoreBackendError.invalidPersistedValue)
      (ExplainabilityEnvelope.new_sequence_record e)

/-- A decoded envelope has the sequence of its row. -/
theorem sequence_of_envelopeFromRow {row : EventRow} {e : ExplainabilityEnvelope ε}
    (h : envelopeFromRow codec row = .ok e) : row.sequence = e.sequence := by
  simp only [envelopeFromRow, bind_eq_ok] at h
  obtain ⟨runId, -, spanId, -, parent, -, timestamp, -, sequence, hsequence, h⟩ := h
  have hrow : row.sequence = sequence := by
    unfold sqliteIntegerToU64 at hsequence
    split at hsequence
    · next hnonneg =>
      rw [← Except.ok.inj hsequence, Int.toNat_of_nonneg hnonneg]
    · cases hsequence
  split at h
  · cases h
  · simp only [bind_eq_ok] at h
    obtain ⟨payload, -, payloadType, -, h⟩ := h
    split at h
    · cases h
    · simp only [bind_eq_ok] at h
      obtain ⟨event, -, h⟩ := h
      unfold ExplainabilityEnvelope.new at h
      split at h
      · rw [hrow, ← Except.ok.inj h]
      · cases h

/-! ### Correspondence -/

/-- The tables hold what the maps hold. -/
structure Corresponds (codec : EventCodec ε) (s : SqliteState) (m : MemoryState ε) : Prop where
  keys : (s.runs.map RunRow.runId).Nodup
  runs : ∀ row, row ∈ s.runs ↔ ∃ id run, m.run id = some run ∧ row = encodeRun run
  storable : ∀ id run, m.run id = some run → StorableRun run
  events : ∀ id, Table.Decodes (envelopeFromRow codec)
    (s.events.filter fun row => row.runId = id.asStr) (m.eventsOf id)

theorem corresponds_new : Corresponds codec .new (.new : MemoryState ε) where
  keys := List.nodup_nil
  runs := by simp [SqliteState.new]
  storable := by simp
  events := fun id => by
    rw [MemoryState.eventsOf_new]
    exact List.Forall₂.nil

@[simp]
theorem encodeRun_runId (run : ExplainabilityRun) : (encodeRun run).runId = run.runId.asStr := rfl

namespace Corresponds

variable {s : SqliteState} {m : MemoryState ε}

section

variable (h : Corresponds codec s m)
include h

/-- The row of a run encodes its record. -/
theorem runRow_eq (hm : m.Contract) (id : ExplainabilityRunId) :
    s.runRow id.asStr = (m.run id).map encodeRun := by
  cases hrun : m.run id with
  | some run =>
    rw [SqliteState.runRow, Option.map_some, Table.find?_key_eq_some_iff h.keys]
    refine ⟨(h.runs _).mpr ⟨id, run, hrun, rfl⟩, ?_⟩
    rw [encodeRun_runId, hm.keyed id run hrun]
  | none =>
    rw [SqliteState.runRow, Option.map_none, List.find?_eq_none]
    intro row hrow
    obtain ⟨id', run, hrun', rfl⟩ := (h.runs row).mp hrow
    have hid : id' ≠ id := by
      rintro rfl
      rw [hrun] at hrun'
      cases hrun'
    rw [encodeRun_runId, hm.keyed id' run hrun', decide_eq_true_eq, Identifier.asStr_inj]
    exact hid

theorem runExists_eq (hm : m.Contract) (id : ExplainabilityRunId) :
    s.runExists id.asStr = (m.run id).isSome := by
  rw [SqliteState.runExists, h.runRow_eq hm, Option.isSome_map]

/-- The rows of the stored runs are those of the map without one run, and the new row. -/
theorem runs_insert (hm : m.Contract)
    (events : AList fun _ : ExplainabilityRunId => List (ExplainabilityEnvelope ε)) (row : RunRow) :
    (∃ id' run', (MemoryState.mk (m.runs.insert id run) events).run id' = some run' ∧
      row = encodeRun run') ↔
      row = encodeRun run ∨ row ∈ s.runs ∧ row.runId ≠ id.asStr := by
  constructor
  · rintro ⟨id', run', hrun', rfl⟩
    rw [MemoryState.run_insert] at hrun'
    split at hrun'
    · exact Or.inl (congrArg encodeRun (Option.some.inj hrun').symm)
    · next hid =>
      refine Or.inr ⟨(h.runs _).mpr ⟨id', run', hrun', rfl⟩, ?_⟩
      rw [encodeRun_runId, hm.keyed id' run' hrun', ne_eq, Identifier.asStr_inj]
      exact hid
  · rintro (rfl | ⟨hrow, hne⟩)
    · exact ⟨id, run, by rw [MemoryState.run_insert, ite_cond_eq_true _ _ (eq_true rfl)], rfl⟩
    · obtain ⟨id', run', hrun', rfl⟩ := (h.runs row).mp hrow
      rw [encodeRun_runId, hm.keyed id' run' hrun', ne_eq, Identifier.asStr_inj] at hne
      exact ⟨id', run', by
        rw [MemoryState.run_insert, ite_cond_eq_false _ _ (eq_false hne), hrun'], rfl⟩

theorem storable_insert (hrun : StorableRun run)
    (events : AList fun _ : ExplainabilityRunId => List (ExplainabilityEnvelope ε))
    (id' : ExplainabilityRunId) (run' : ExplainabilityRun)
    (hrun' : (MemoryState.mk (m.runs.insert id run) events).run id' = some run') :
    StorableRun run' := by
  rw [MemoryState.run_insert] at hrun'
  split at hrun'
  · rw [← Option.some.inj hrun']
    exact hrun
  · exact h.storable id' run' hrun'

/-! ### Creation -/

theorem createRun (hm : m.Contract) (hstart : run.startedAt.Canonical) :
    (s.createRun run).1 = (m.createRun run).1 ∧
    Corresponds codec (s.createRun run).2 (m.createRun run).2 := by
  unfold SqliteState.createRun MemoryState.createRun
  cases hvalid : validateCreateRun run with
  | error e => exact ⟨rfl, h⟩
  | ok u =>
    by_cases hmem : run.runId ∈ m.runs
    · have hexists : s.runExists run.runId.asStr = true := by
        obtain ⟨stored, hstored⟩ := MemoryState.mem_runs_iff.mp hmem
        rw [h.runExists_eq hm, hstored, Option.isSome_some]
      simp only [SqliteState.insertRun, SqliteState.transaction, hexists, hmem, ↓reduceIte]
      exact ⟨rfl, h⟩
    · have hfresh : m.run run.runId = none := MemoryState.not_mem_runs_iff.mp hmem
      have hexists : s.runExists run.runId.asStr = false := by
        rw [h.runExists_eq hm, hfresh, Option.isSome_none]
      have hinsert : s.insertRunRow (newRunRow run) =
          .ok { s with runs := s.runs ++ [newRunRow run] } := by
        rw [SqliteState.insertRunRow]
        refine ite_cond_eq_false _ _ (eq_false ?_)
        rintro (hdup | hneg)
        · rw [newRunRow, hexists] at hdup
          cases hdup
        · exact absurd hneg (lt_irrefl (0 : ℤ))
      obtain ⟨hcount, hopen, -, hmethod⟩ := MemoryState.validateCreateRun_eq_ok.mp hvalid
      have hrow : newRunRow run = encodeRun run := by
        rw [encodeRun, hopen, hcount]
        rfl
      simp only [SqliteState.insertRun, SqliteState.transaction, hexists, hmem, hinsert,
        Bool.false_eq_true, ↓reduceIte, true_and]
      have hkeysNe : ∀ row ∈ s.runs, row.runId ≠ run.runId.asStr := by
        intro row hrow hkey
        have hfind := (Table.find?_key_eq_some_iff h.keys).mpr ⟨hrow, hkey⟩
        have hnone := h.runRow_eq hm run.runId
        rw [SqliteState.runRow, hfind, hfresh] at hnone
        cases hnone
      refine ⟨?_, ?_, ?_, h.events⟩
      · rw [List.map_append, List.nodup_append]
        refine ⟨h.keys, List.nodup_singleton _, ?_⟩
        intro key hkey key' hkey'
        rw [List.map_singleton, List.mem_singleton] at hkey'
        obtain ⟨row, hrow, rfl⟩ := List.mem_map.mp hkey
        rw [hkey']
        exact hkeysNe row hrow
      · intro row
        rw [h.runs_insert hm, List.mem_append, List.mem_singleton, hrow]
        constructor
        · rintro (hmem | rfl)
          · exact Or.inr ⟨hmem, hkeysNe row hmem⟩
          · exact Or.inl rfl
        · rintro (rfl | ⟨hmem, -⟩)
          · exact Or.inr rfl
          · exact Or.inl hmem
      · refine h.storable_insert ⟨hstart, ?_, hmethod, ?_⟩ _
        · intro t ht
          rw [hopen] at ht
          cases ht
        · rw [hcount]
          exact Nat.zero_le _

/-! ### Deletion -/

theorem deleteRun (hm : m.Contract) (id : ExplainabilityRunId) :
    (s.deleteRun id).1 = (m.deleteRun id).1 ∧
    Corresponds codec (s.deleteRun id).2 (m.deleteRun id).2 := by
  refine ⟨rfl, ?_, ?_, ?_, ?_⟩
  · exact h.keys.sublist (List.filter_sublist.map RunRow.runId)
  · intro row
    simp only [SqliteState.deleteRun, SqliteState.transaction, SqliteState.deleteRunRow,
      MemoryState.deleteRun, List.mem_filter, decide_eq_true_eq, MemoryState.run_erase]
    constructor
    · rintro ⟨hrow, hne⟩
      obtain ⟨id', run, hrun, rfl⟩ := (h.runs row).mp hrow
      refine ⟨id', run, ?_, rfl⟩
      rw [encodeRun_runId, hm.keyed id' run hrun, ne_eq, Identifier.asStr_inj] at hne
      rw [ite_cond_eq_false _ _ (eq_false hne), hrun]
    · rintro ⟨id', run, hrun, rfl⟩
      split at hrun
      · cases hrun
      · next hid =>
        refine ⟨(h.runs _).mpr ⟨id', run, hrun, rfl⟩, ?_⟩
        rw [encodeRun_runId, hm.keyed id' run hrun, ne_eq, Identifier.asStr_inj]
        exact hid
  · intro id' run hrun
    simp only [MemoryState.deleteRun, MemoryState.run_erase] at hrun
    split at hrun
    · cases hrun
    · exact h.storable id' run hrun
  · intro id'
    simp only [SqliteState.deleteRun, SqliteState.transaction, SqliteState.deleteRunRow,
      MemoryState.deleteRun, MemoryState.eventsOf_erase, List.filter_filter]
    split
    · next hid =>
      rw [List.filter_eq_nil_iff.mpr]
      · exact .nil
      · rintro row - hrow
        simp only [hid, Bool.and_eq_true, decide_eq_true_eq] at hrow
        exact hrow.2 hrow.1
    · next hid =>
      have hsame : ∀ row ∈ s.events, (decide (row.runId = id'.asStr) &&
          decide (row.runId ≠ id.asStr)) = decide (row.runId = id'.asStr) := by
        intro row _
        by_cases hrow : row.runId = id'.asStr
        · simp [hrow, hid]
        · simp [hrow]
      rw [List.filter_congr hsame]
      exact h.events id'

/-! ### Updates of one run -/

/-- An update of one run's row stores the updated run. -/
theorem updateRuns_spec (hm : m.Contract) (stored : m.run id = some run) (run' : ExplainabilityRun)
    {s' : SqliteState} (hs' : s'.runs = s.runs) (p : RunRow → Bool) (set : RunRow → RunRow)
    (hp : ∀ row ∈ s.runs, p row = true ↔ row.runId = id.asStr)
    (hset : ∀ row, (set row).runId = row.runId) (hrow : set (encodeRun run) = encodeRun run')
    (events : AList fun _ : ExplainabilityRunId => List (ExplainabilityEnvelope ε)) :
    (s'.updateRuns p set).1 = 1 ∧ ((s'.updateRuns p set).2.runs.map RunRow.runId).Nodup ∧
    ∀ row, row ∈ (s'.updateRuns p set).2.runs ↔
      ∃ id' r, (MemoryState.mk (m.runs.insert id run') events).run id' = some r ∧
        row = encodeRun r := by
  have hmem : encodeRun run ∈ s.runs := (h.runs _).mpr ⟨id, run, stored, rfl⟩
  have hkey : (encodeRun run).runId = id.asStr := by
    rw [encodeRun_runId, hm.keyed id run stored]
  have hp' : ∀ row ∈ s.runs, p row = true ↔ row.runId = (encodeRun run).runId := by
    rw [hkey]
    exact hp
  simp only [SqliteState.updateRuns, hs']
  refine ⟨?_, ?_, fun row => ?_⟩
  · rw [Table.filter_eq_singleton h.keys hmem hp', List.length_singleton]
  · rw [Table.map_key_update hset]
    exact h.keys
  · rw [Table.mem_update_iff h.keys hmem hp', hrow, hkey, h.runs_insert hm]

/-! ### Completion -/

theorem completeRun (hm : m.Contract) {completion : RunCompletion}
    (htime : completion.completedAt.Canonical) :
    (s.completeRun completion).1 = (m.completeRun completion).1 ∧
    Corresponds codec (s.completeRun completion).2 (m.completeRun completion).2 := by
  unfold SqliteState.completeRun MemoryState.completeRun
  by_cases hstatus : (!isTerminal completion.status) = true
  · rw [ite_cond_eq_true _ _ (eq_true hstatus), ite_cond_eq_true _ _ (eq_true hstatus)]
    exact ⟨rfl, h⟩
  rw [ite_cond_eq_false _ _ (eq_false hstatus), ite_cond_eq_false _ _ (eq_false hstatus)]
  unfold SqliteState.completeRunRow
  rw [h.runRow_eq hm]
  cases hrun : m.run completion.runId with
  | none => exact ⟨rfl, h⟩
  | some run =>
    have hstorable := h.storable _ run hrun
    have hid := hm.keyed _ run hrun
    simp only [Option.map_some, encodeRun, newRunRow,
      ExplainabilityRunStatus.fromSqlText_toSqlText,
      DateTime.datetimeFromSqlText_toSqlText hstorable.startedAt,
      optionalDatetimeFromSqlText_map hstorable.completedAt, hm.lifecycle hrun, liftBackend, bind,
      Except.bind]
    by_cases hbefore : completion.completedAt < run.startedAt
    · simp only [hbefore, ↓reduceIte, hid]
      exact ⟨rfl, h⟩
    by_cases hdone : run.completedAt.isSome = true ∨ isTerminal run.status = true
    · simp only [hbefore, hdone, ↓reduceIte, hid]
      by_cases hsame : run.status = completion.status ∧
          run.completedAt = some completion.completedAt
      · simp only [hsame, and_self, ↓reduceIte]
        exact ⟨rfl, h⟩
      · simp only [hsame, ↓reduceIte]
        exact ⟨rfl, h⟩
    simp only [hbefore, hdone, ↓reduceIte]
    obtain ⟨hcount, hkeys, hruns⟩ := h.updateRuns_spec hm hrun
      { run with status := completion.status, completedAt := some completion.completedAt }
      (show s.runs = s.runs from rfl) (fun row => row.runId = completion.runId.asStr)
      (fun row => { row with
        status := completion.status.toSqlText
        completedAt := some (datetimeToSqlText completion.completedAt) })
      (fun row _ => decide_eq_true_iff) (fun _ => rfl) rfl m.events
    simp only [hcount, ne_eq, not_true_eq_false, ↓reduceIte, SqliteState.transaction, true_and]
    have hstorable' : StorableRun
        { run with status := completion.status, completedAt := some completion.completedAt } := by
      refine ⟨hstorable.startedAt, ?_, hstorable.method, hstorable.eventCount⟩
      intro t ht
      rw [← Option.some.inj ht]
      exact htime
    exact ⟨hkeys, hruns, h.storable_insert hstorable' _, h.events⟩

end

/-! ### Appending -/

/-- What preparing a batch of storable envelopes gives. -/
theorem prepareEvents_spec {events : List (ExplainabilityEnvelope ε)}
    (h : ∀ e ∈ events, StorableEnvelope codec e) :
    ∃ prepared, events.mapM (prepareEvent codec) = .ok prepared ∧
      prepared.map PreparedEvent.sequence = events.map (·.sequence) ∧
      prepared.map (·.row.runId) = events.map (·.record.runId.asStr) ∧
      prepared.map (·.row.sequence) = events.map (fun e => (e.sequence : ℤ)) ∧
      Table.Decodes (envelopeFromRow codec) (prepared.map PreparedEvent.row) events := by
  induction events with
  | nil => exact ⟨[], rfl, rfl, rfl, rfl, .nil⟩
  | cons e events ih =>
    obtain ⟨p, hp, hsequence, hrunId, hrow, hdecode⟩ := prepareEvent_spec (h e (List.mem_cons_self ..))
    obtain ⟨prepared, hprepared, hsequences, hrunIds, hrows, hdecodes⟩ :=
      ih fun e he => h e (List.mem_cons_of_mem _ he)
    refine ⟨p :: prepared, ?_, ?_, ?_, ?_, .cons hdecode hdecodes⟩
    · rw [List.mapM_cons, hp, hprepared]
      rfl
    · rw [List.map_cons, List.map_cons, hsequence, hsequences]
    · rw [List.map_cons, List.map_cons, hrunId, hrunIds]
    · rw [List.map_cons, List.map_cons, hrow, hrows]

/-- The two sequence checks agree. -/
theorem checkSequences_eq (runId : ExplainabilityRunId) (n : ℕ) {prepared : List PreparedEvent}
    {events : List (ExplainabilityEnvelope ε)} (pending : List (ExplainabilityEnvelope ε))
    (h : prepared.map PreparedEvent.sequence = events.map (·.sequence)) :
    SqliteState.checkSequences runId n prepared =
      match MemoryState.appendLoop runId n pending events with
      | .error e => .error (.store e)
      | .ok (m, _) => .ok m := by
  induction events generalizing n prepared pending with
  | nil =>
    rw [List.map_nil, List.map_eq_nil_iff] at h
    subst h
    rfl
  | cons e events ih =>
    cases prepared with
    | nil => cases h
    | cons item prepared =>
      rw [List.map_cons, List.map_cons, List.cons.injEq] at h
      rw [SqliteState.checkSequences, MemoryState.appendLoop, h.1]
      cases checkedAdd n 1 with
      | none => rfl
      | some expected =>
        simp only
        split
        · rfl
        · exact ih expected (pending ++ [e]) h.2

/-- Rows with the next sequences of a run are all inserted. -/
theorem insertEventRows_spec {n : ℕ}
    {prepared : List PreparedEvent} (hexists : s.runExists id.asStr = true)
    (hrunId : ∀ p ∈ prepared, p.row.runId = id.asStr)
    (hsequences : prepared.map (·.row.sequence) =
      (List.range' (n + 1) prepared.length).map Nat.cast)
    (hold : ∀ row ∈ s.events, row.runId = id.asStr → row.sequence ≤ n) :
    s.insertEventRows prepared =
      .ok { s with events := s.events ++ prepared.map PreparedEvent.row } := by
  induction prepared generalizing s n with
  | nil => rw [SqliteState.insertEventRows, List.map_nil, List.append_nil]
  | cons item prepared ih =>
    rw [List.map_cons, List.length_cons, List.range'_succ, List.map_cons, List.cons.injEq]
      at hsequences
    obtain ⟨hsequence, hsequences⟩ := hsequences
    have hitem : item.row.runId = id.asStr := hrunId item (List.mem_cons_self ..)
    have hinsert : s.insertEventRow item.row =
        .ok { s with events := s.events ++ [item.row] } := by
      rw [SqliteState.insertEventRow]
      refine ite_cond_eq_false _ _ (eq_false ?_)
      rw [hitem, hexists, hsequence]
      rintro (hdup | hpos | hmissing)
      · obtain ⟨row, hrow, heq⟩ := List.any_eq_true.mp hdup
        rw [decide_eq_true_eq] at heq
        have := hold row hrow heq.1
        push_cast at heq
        omega
      · push_cast at hpos
        omega
      · cases hmissing
    have hrest : ∀ row ∈ s.events ++ [item.row], row.runId = id.asStr →
        row.sequence ≤ ((n + 1 : ℕ) : ℤ) := by
      intro row hrow hid
      rw [List.mem_append, List.mem_singleton] at hrow
      rcases hrow with hrow | rfl
      · have := hold row hrow hid
        push_cast
        omega
      · rw [hsequence]
    rw [SqliteState.insertEventRows, hinsert]
    have hinserted := ih (s := { s with events := s.events ++ [item.row] }) hexists
      (fun p hp => hrunId p (List.mem_cons_of_mem _ hp)) hsequences hrest
    rw [List.append_assoc, List.singleton_append] at hinserted
    exact hinserted

section

variable (h : Corresponds codec s m)
include h

/-- The stored rows of a run have sequences up to its event count. -/
theorem sequence_le (hm : m.Contract)
    {row : EventRow} (hrow : row ∈ s.events) (hid : row.runId = id.asStr) :
    row.sequence ≤ (m.eventsOf id).length := by
  have hsequences := (h.events id).map_eq (f := EventRow.sequence)
    (g := fun e => (e.sequence : ℤ)) fun _ _ => sequence_of_envelopeFromRow
  have hmem : row.sequence ∈ (m.eventsOf id).map fun e => (e.sequence : ℤ) := by
    rw [← hsequences]
    exact List.mem_map_of_mem (List.mem_filter.mpr ⟨hrow, decide_eq_true hid⟩)
  obtain ⟨e, he, heq⟩ := List.mem_map.mp hmem
  have hrange : e.sequence ∈ List.range' 1 (m.eventsOf id).length := by
    rw [← hm.sequences id]
    exact List.mem_map_of_mem he
  rw [List.mem_range'_1] at hrange
  omega

/-- The rows of every run after a batch of one run is inserted. -/
theorem events_append {rows : List EventRow} {batch : List (ExplainabilityEnvelope ε)}
    (hrows : ∀ row ∈ rows, row.runId = id.asStr)
    (hdecodes : Table.Decodes (envelopeFromRow codec) rows batch)
    (runs : AList fun _ : ExplainabilityRunId => ExplainabilityRun) (id' : ExplainabilityRunId) :
    Table.Decodes (envelopeFromRow codec)
      ((s.events ++ rows).filter fun row => row.runId = id'.asStr)
      ((MemoryState.mk runs (m.events.insert id (m.eventsOf id ++ batch))).eventsOf id') := by
  rw [List.filter_append, MemoryState.eventsOf_insert]
  split
  · next hid =>
    have hall : rows.filter (fun row => row.runId = id'.asStr) = rows := by
      rw [List.filter_eq_self]
      intro row hrow
      rw [decide_eq_true_eq, hid]
      exact hrows row hrow
    rw [hall, hid]
    exact (h.events id).append hdecodes
  · next hid =>
    have hnone : rows.filter (fun row => row.runId = id'.asStr) = [] := by
      rw [List.filter_eq_nil_iff]
      intro row hrow
      rw [decide_eq_true_eq, hrows row hrow, Identifier.asStr_inj]
      exact Ne.symm hid
    rw [hnone, List.append_nil]
    exact h.events id'

theorem appendEvents (hm : m.Contract)
    {batch : List (ExplainabilityEnvelope ε)} (hbatch : ∀ e ∈ batch, StorableEnvelope codec e) :
    (s.appendEvents codec batch).1 = (m.appendEvents batch).1 ∧
    Corresponds codec (s.appendEvents codec batch).2 (m.appendEvents batch).2 := by
  unfold SqliteState.appendEvents MemoryState.appendEvents
  cases batch with
  | nil => exact ⟨rfl, h⟩
  | cons first rest =>
    simp only
    generalize hbatchEq : first :: rest = batch at hbatch ⊢
    cases hmixed : batch.find? fun e => e.record.runId ≠ first.record.runId with
    | some mixed => exact ⟨rfl, h⟩
    | none =>
      have hsame : ∀ e ∈ batch, e.record.runId = first.record.runId := by
        intro e he
        simpa using List.find?_eq_none.mp hmixed e he
      generalize first.record.runId = id at hsame
      obtain ⟨prepared, hprepared, hsequences, hrunIds, hrowSequences, hdecodes⟩ :=
        prepareEvents_spec hbatch
      simp only [hprepared, liftBackend, bind, Except.bind, SqliteState.appendPreparedEvents,
        h.runRow_eq hm]
      cases hrun : m.run id with
      | none => exact ⟨rfl, h⟩
      | some run =>
        have hstorable := h.storable _ run hrun
        simp only [Option.map_some, encodeRun, newRunRow,
          ExplainabilityRunStatus.fromSqlText_toSqlText,
          DateTime.datetimeFromSqlText_toSqlText hstorable.startedAt,
          optionalDatetimeFromSqlText_map hstorable.completedAt, hm.lifecycle hrun]
        by_cases hterminal : isTerminal run.status = true
        · simp only [hterminal, ↓reduceIte]
          exact ⟨rfl, h⟩
        simp only [hterminal, sqliteIntegerToU64_natCast,
          checkSequences_eq id run.eventCount [] hsequences]
        cases hloop : MemoryState.appendLoop id run.eventCount [] batch with
        | error e => exact ⟨rfl, h⟩
        | ok result =>
          obtain ⟨final, pending⟩ := result
          obtain ⟨hpending, rfl, hrange, -⟩ := MemoryState.appendLoop_eq_ok.mp hloop
          have hpending' : batch = pending := hpending.symm
          subst hpending'
          -- the last envelope carries the final count, and its sequence fits `i64`
          have hfinal : run.eventCount + batch.length ≤ i64Max := by
            have hlast : run.eventCount + batch.length ∈
                List.range' (run.eventCount + 1) batch.length := by
              rw [← hbatchEq, List.length_cons, List.mem_range'_1]
              omega
            rw [← hrange] at hlast
            obtain ⟨e, he, heq⟩ := List.mem_map.mp hlast
            rw [← heq]
            exact (hbatch e he).sequence
          have hlength : prepared.length = batch.length := by
            rw [← List.length_map PreparedEvent.sequence, hsequences, List.length_map]
          have hrunId : ∀ p ∈ prepared, p.row.runId = id.asStr := by
            intro p hp
            have hmem : p.row.runId ∈ batch.map (·.record.runId.asStr) := by
              rw [← hrunIds]
              exact List.mem_map_of_mem hp
            obtain ⟨e, he, heq⟩ := List.mem_map.mp hmem
            rw [← heq, hsame e he]
          have hinsert := insertEventRows_spec (s := s) (n := run.eventCount)
            (by rw [h.runExists_eq hm, hrun, Option.isSome_some]) hrunId
            (by
              rw [hrowSequences, hlength, ← hrange, List.map_map]
              rfl)
            (fun row hrow hid => by
              rw [hm.eventCount id run hrun]
              exact h.sequence_le hm hrow hid)
          obtain ⟨hcount, hkeys, hruns⟩ := h.updateRuns_spec hm hrun
            { run with eventCount := run.eventCount + batch.length }
            (show ({ s with events := s.events ++ prepared.map PreparedEvent.row } :
              SqliteState).runs = s.runs from rfl)
            (fun row => row.runId = id.asStr ∧ row.eventCount = run.eventCount)
            (fun row => { row with eventCount := ((run.eventCount + batch.length : ℕ) : ℤ) })
            (fun row hrow => by
              rw [decide_eq_true_eq, and_iff_left_iff_imp]
              intro hid
              have hfind := (Table.find?_key_eq_some_iff h.keys).mpr ⟨hrow, hid⟩
              have hrowEq := h.runRow_eq hm id
              rw [SqliteState.runRow, hfind, hrun, Option.map_some, Option.some.injEq] at hrowEq
              rw [hrowEq]
              rfl)
            (fun _ => rfl) rfl (m.events.insert id (m.eventsOf id ++ batch))
          simp only [u64ToSqliteInteger_of_le hfinal, hinsert, hcount, ne_eq,
            not_true_eq_false, Bool.false_eq_true, ↓reduceIte, SqliteState.transaction, true_and]
          have hstorable' : StorableRun
              { run with eventCount := run.eventCount + batch.length } :=
            ⟨hstorable.startedAt, hstorable.completedAt, hstorable.method, hfinal⟩
          refine ⟨hkeys, hruns, h.storable_insert hstorable' _, fun id' => ?_⟩
          refine h.events_append ?_ hdecodes _ id'
          intro row hrow
          obtain ⟨p, hp, rfl⟩ := List.mem_map.mp hrow
          exact hrunId p hp

/-! ### Reads -/

theorem getRun (hm : m.Contract) (id : ExplainabilityRunId) : s.getRun id = m.getRun id := by
  rw [SqliteState.getRun, MemoryState.getRun, h.runRow_eq hm]
  cases hrun : m.run id with
  | none => rfl
  | some run =>
    have hread := runFromRow_encodeRun (h.storable id run hrun) (hm.lifecycle hrun)
    simp only [Option.map_some, Option.mapM_some, hread]
    rfl

end

variable {query : RunQuery}

/-- A query selects a row exactly when it selects the run. -/
theorem matchesQueryRow_encodeRun (hrun : StorableRun run)
    (hcursor : ∀ cursor, query.before = some cursor →
      cursor.startedAt.Canonical) :
    SqliteState.matchesQueryRow query (encodeRun run) = MemoryState.matchesQuery query run := by
  have hmethod : ∀ method : ExplainabilityQueryMethod,
      (run.queryMethod.map ExplainabilityQueryMethod.toSqlText = some method.toSqlText) =
        (run.queryMethod = some method) := by
    intro method
    cases run.queryMethod <;> simp
  have hbefore : ∀ cursor, query.before = some cursor →
      decide (datetimeToSqlText run.startedAt < datetimeToSqlText cursor.startedAt ∨
        datetimeToSqlText run.startedAt = datetimeToSqlText cursor.startedAt ∧
          run.runId.asStr < cursor.runId.asStr) = isStrictlyOlderThan run cursor := by
    intro cursor hc
    rw [isStrictlyOlderThan, decide_eq_decide,
      DateTime.datetimeToSqlText_lt_iff hrun.startedAt (hcursor cursor hc),
      DateTime.datetimeToSqlText_inj hrun.startedAt (hcursor cursor hc)]
  unfold SqliteState.matchesQueryRow MemoryState.matchesQuery
  simp only [encodeRun, newRunRow, ExplainabilityRunKind.toSqlText_inj,
    ExplainabilityRunStatus.toSqlText_inj, hmethod]
  congr 1
  cases hc : query.before with
  | none => rfl
  | some cursor =>
    rw [Option.all_some, Option.all_some]
    exact hbefore cursor hc

instance : Std.Total SqliteState.historyRowOrder where
  total a b := by
    unfold SqliteState.historyRowOrder
    rcases lt_trichotomy a.startedAt b.startedAt with h | h | h
    · exact Or.inr (Or.inl h)
    · rcases le_total b.runId a.runId with h' | h'
      · exact Or.inl (Or.inr ⟨h.symm, h'⟩)
      · exact Or.inr (Or.inr ⟨h, h'⟩)
    · exact Or.inl (Or.inl h)

instance : IsTrans RunRow SqliteState.historyRowOrder where
  trans a b c := by
    unfold SqliteState.historyRowOrder
    rintro (hab | ⟨hab, hab'⟩) (hbc | ⟨hbc, hbc'⟩)
    · exact Or.inl (hbc.trans hab)
    · exact Or.inl (hbc ▸ hab)
    · exact Or.inl (hab ▸ hbc)
    · exact Or.inr ⟨hbc.trans hab, hbc'.trans hab'⟩

/-- Rows and runs are listed in the same order. -/
theorem historyRowOrder_encodeRun {a b : ExplainabilityRun} (ha : StorableRun a)
    (hb : StorableRun b) :
    MemoryState.historyOrder a b ↔
      SqliteState.historyRowOrder (encodeRun a) (encodeRun b) := by
  rw [MemoryState.historyOrder, SqliteState.historyRowOrder, encodeRun, encodeRun, newRunRow,
    newRunRow, DateTime.datetimeToSqlText_lt_iff hb.startedAt ha.startedAt,
    DateTime.datetimeToSqlText_inj hb.startedAt ha.startedAt]

/-- The selected rows are those of the selected runs, in some order. -/
theorem filter_perm (h : Corresponds codec s m) (hm : m.Contract)
    (hcursor : ∀ cursor, query.before = some cursor → cursor.startedAt.Canonical) :
    (s.runs.filter (SqliteState.matchesQueryRow query)).Perm
      ((m.collectMatchingRuns query).map encodeRun) := by
  have hselected : ((m.collectMatchingRuns query).map encodeRun).Nodup := by
    refine List.Nodup.of_map RunRow.runId ?_
    rw [List.map_map]
    exact hm.nodup_runIds.sublist (List.filter_sublist.map _)
  rw [List.perm_ext_iff_of_nodup (h.keys.of_map.filter _) hselected]
  intro row
  rw [List.mem_filter, h.runs, List.mem_map]
  constructor
  · rintro ⟨⟨id, run, hrun, rfl⟩, hmatch⟩
    rw [matchesQueryRow_encodeRun (h.storable id run hrun) hcursor] at hmatch
    exact ⟨run, List.mem_filter.mpr ⟨MemoryState.mem_values_iff.mpr ⟨id, hrun⟩, hmatch⟩, rfl⟩
  · rintro ⟨run, hmem, rfl⟩
    obtain ⟨hmem, hmatch⟩ := List.mem_filter.mp hmem
    obtain ⟨id, hrun⟩ := MemoryState.mem_values_iff.mp hmem
    rw [← matchesQueryRow_encodeRun (h.storable id run hrun) hcursor] at hmatch
    exact ⟨⟨id, run, hrun, rfl⟩, hmatch⟩

theorem listRuns (h : Corresponds codec s m) (hm : m.Contract)
    (hcursor : ∀ cursor, query.before = some cursor → cursor.startedAt.Canonical) :
    s.listRuns query = m.listRuns query := by
  unfold SqliteState.listRuns MemoryState.listRuns
  cases validateLimit query.limit 1 maxRunQueryLimit "run history" with
  | error e => rfl
  | ok u =>
    have hstored : ∀ run ∈ m.collectMatchingRuns query, ∃ id, m.run id = some run := by
      intro run hrun
      obtain ⟨entry, hentry, rfl⟩ := List.mem_map.mp (List.mem_filter.mp hrun).1
      exact ⟨entry.1, AList.mem_lookup_iff.mpr hentry⟩
    have hstorable : ∀ run ∈ m.collectMatchingRuns query, StorableRun run := by
      intro run hrun
      obtain ⟨id, hid⟩ := hstored run hrun
      exact h.storable id run hid
    have hsorted : (s.runs.filter (SqliteState.matchesQueryRow query)).insertionSort
        SqliteState.historyRowOrder =
        ((m.collectMatchingRuns query).insertionSort MemoryState.historyOrder).map encodeRun := by
      rw [List.map_insertionSort MemoryState.historyOrder SqliteState.historyRowOrder encodeRun
        (m.collectMatchingRuns query) fun a ha b hb =>
          historyRowOrder_encodeRun (hstorable a ha) (hstorable b hb)]
      refine Table.insertionSort_eq_of_perm (h.filter_perm hm hcursor) ?_
      intro a ha b hb hab hba
      refine List.inj_on_of_nodup_map h.keys (List.mem_of_mem_filter ha)
        (List.mem_of_mem_filter hb) ?_
      unfold SqliteState.historyRowOrder at hab hba
      rcases hab with hab | ⟨hab, hab'⟩ <;> rcases hba with hba | ⟨hba, hba'⟩
      · exact absurd hba hab.asymm
      · exact absurd hab (hba ▸ lt_irrefl _)
      · exact absurd hba (hab ▸ lt_irrefl _)
      · exact le_antisymm hba' hab'
    have hdecodes : Table.Decodes runFromRow
        ((((m.collectMatchingRuns query).insertionSort MemoryState.historyOrder).map
          encodeRun).take query.limit)
        (MemoryState.orderAndLimitRuns (m.collectMatchingRuns query) query.limit) := by
      refine (Table.decodes_map fun run hrun => ?_).take query.limit
      rw [(List.perm_insertionSort _ _).mem_iff] at hrun
      obtain ⟨id, hid⟩ := hstored run hrun
      exact runFromRow_encodeRun (hstorable run hrun) (hm.lifecycle hid)
    simp only [hsorted, hdecodes.mapM]
    rfl

theorem loadEvents (h : Corresponds codec s m) (hm : m.Contract) (id : ExplainabilityRunId)
    (query : EventQuery) : s.loadEvents codec id query = m.loadEvents id query := by
  unfold SqliteState.loadEvents MemoryState.loadEvents
  cases validateLimit query.limit 1 maxEventQueryLimit "event replay" with
  | error e => rfl
  | ok u =>
    simp only
    by_cases hmem : id ∈ m.runs
    · obtain ⟨run, hrun⟩ := MemoryState.mem_runs_iff.mp hmem
      have hexists : s.runExists id.asStr = true := by
        rw [h.runExists_eq hm, hrun, Option.isSome_some]
      rw [hexists, ite_cond_eq_true _ _ (eq_true hmem), ite_cond_eq_true _ _ (eq_true rfl)]
      generalize query.afterSequence.getD 0 = after
      by_cases hafter : after ≤ i64Max
      · rw [ite_cond_eq_true _ _ (eq_true hafter)]
        have hdecodes := (h.events id).filter (p := fun row => (after : ℤ) < row.sequence)
          (q := fun e => after < e.sequence) fun row e hrow => by
            rw [decide_eq_decide, sequence_of_envelopeFromRow hrow, Nat.cast_lt]
        have hselect : (s.events.filter fun row => row.runId = id.asStr ∧
            (after : ℤ) < row.sequence) =
            (s.events.filter fun row => row.runId = id.asStr).filter
              fun row => (after : ℤ) < row.sequence := by
          rw [List.filter_filter]
          exact List.filter_congr fun row _ => by rw [Bool.decide_and, Bool.and_comm]
        have hsorted : ((s.events.filter fun row => row.runId = id.asStr).filter
            fun row => (after : ℤ) < row.sequence).Pairwise
            fun left right => left.sequence ≤ right.sequence := by
          refine List.Pairwise.filter _ ?_
          have hsequences := (h.events id).map_eq (f := EventRow.sequence)
            (g := fun e => (e.sequence : ℤ)) fun _ _ => sequence_of_envelopeFromRow
          have hcast : ((m.eventsOf id).map fun e => (e.sequence : ℤ)) =
              (List.range' 1 (m.eventsOf id).length).map Nat.cast := by
            rw [← hm.sequences id, List.map_map]
            rfl
          have hpairs : ((s.events.filter fun row => row.runId = id.asStr).map
              EventRow.sequence).Pairwise (· ≤ ·) := by
            rw [hsequences, hcast, List.pairwise_map]
            exact List.pairwise_le_range'.imp fun hle => Nat.cast_le.mpr hle
          exact List.pairwise_map.mp hpairs
        rw [SqliteState.eventRows, hselect, hsorted.insertionSort_eq,
          (hdecodes.take query.limit).mapM]
        rfl
      · rw [ite_cond_eq_false _ _ (eq_false hafter)]
        have hnone : (m.eventsOf id).filter (fun e => after < e.sequence) = [] := by
          rw [List.filter_eq_nil_iff]
          intro e he
          have hrange : e.sequence ∈ List.range' 1 (m.eventsOf id).length := by
            rw [← hm.sequences id]
            exact List.mem_map_of_mem he
          rw [List.mem_range'_1] at hrange
          have := hm.eventCount id run hrun
          have := (h.storable id run hrun).eventCount
          rw [decide_eq_true_eq]
          omega
        rw [hnone, List.take_nil]
        rfl
    · have hexists : s.runExists id.asStr = false := by
        rw [h.runExists_eq hm, MemoryState.not_mem_runs_iff.mp hmem, Option.isSome_none]
      rw [hexists, ite_cond_eq_false _ _ (eq_false hmem)]
      rfl

end Corresponds

/-! ### Sequences of calls -/

/-- The calls the equivalence is claimed for: timestamps have years `0..=9999`, sequences fit `i64`
and events are serialisable. -/
def StoreCall.InDomain (codec : EventCodec ε) : StoreCall ε → Prop
  | .createRun run => run.startedAt.FourDigitYear
  | .appendEvents events => ∀ e ∈ events, e.sequence ≤ i64Max ∧
      e.record.timestamp.FourDigitYear ∧ codec.Serialisable e.record.event
  | .completeRun completion => completion.completedAt.FourDigitYear
  | .listRuns query => ∀ cursor, query.before = some cursor → cursor.startedAt.FourDigitYear
  | .getRun _ | .loadEvents _ _ | .deleteRun _ => True

/-- The values of a call that the text columns keep: no leap second away from the end of its minute,
and no event that `serde_json` reads back changed. -/
def StoreCall.Faithful (codec : EventCodec ε) : StoreCall ε → Prop
  | .createRun run => run.startedAt.StandardLeapSecond
  | .appendEvents events => ∀ e ∈ events, e.record.timestamp.StandardLeapSecond ∧
      codec.ReadsBack e.record.event
  | .completeRun completion => completion.completedAt.StandardLeapSecond
  | .listRuns query => ∀ cursor, query.before = some cursor → cursor.startedAt.StandardLeapSecond
  | .getRun _ | .loadEvents _ _ | .deleteRun _ => True

/-- Corresponding stores answer a call alike and stay in correspondence. -/
theorem call_corresponds {s : SqliteState} {m : MemoryState ε} (h : Corresponds codec s m)
    (hm : m.Contract) {c : StoreCall ε} (hdomain : c.InDomain codec) (hfaithful : c.Faithful codec) :
    (s.call codec c).1 = (m.call c).1 ∧ Corresponds codec (s.call codec c).2 (m.call c).2 := by
  cases c with
  | createRun run =>
    obtain ⟨hresult, hstate⟩ := h.createRun hm ⟨hdomain, hfaithful⟩
    exact ⟨congrArg (Except.map fun _ => StoreReply.done) hresult, hstate⟩
  | appendEvents events =>
    obtain ⟨hresult, hstate⟩ := h.appendEvents hm fun e he =>
      ⟨(hdomain e he).1, ⟨(hdomain e he).2.1, (hfaithful e he).1⟩, (hfaithful e he).2⟩
    exact ⟨congrArg (Except.map fun _ => StoreReply.done) hresult, hstate⟩
  | completeRun completion =>
    obtain ⟨hresult, hstate⟩ := h.completeRun hm ⟨hdomain, hfaithful⟩
    exact ⟨congrArg (Except.map fun _ => StoreReply.done) hresult, hstate⟩
  | getRun id => exact ⟨congrArg (Except.map StoreReply.run) (h.getRun hm id), h⟩
  | listRuns query =>
    have hcursor : ∀ cursor, query.before = some cursor → cursor.startedAt.Canonical :=
      fun cursor hc => ⟨hdomain cursor hc, hfaithful cursor hc⟩
    exact ⟨congrArg (Except.map StoreReply.runs) (h.listRuns hm hcursor), h⟩
  | loadEvents id query => exact ⟨congrArg (Except.map StoreReply.events) (h.loadEvents hm id query), h⟩
  | deleteRun id =>
    obtain ⟨hresult, hstate⟩ := h.deleteRun hm id
    exact ⟨congrArg (Except.map fun _ => StoreReply.done) hresult, hstate⟩

/-- **The two stores agree.**  Over every finite sequence of calls in the domain whose values the
text columns keep, the SQLite store and the in-memory store give the same results and end in
corresponding states. -/
theorem sqliteExplainabilityStore_agrees (codec : EventCodec ε) (calls : List (StoreCall ε))
    (hdomain : ∀ c ∈ calls, c.InDomain codec) (hfaithful : ∀ c ∈ calls, c.Faithful codec) :
    (sqliteExplainabilityStore codec).replies calls =
      (inMemoryExplainabilityStore ε).replies calls ∧
    Corresponds codec ((sqliteExplainabilityStore codec).run calls)
      ((inMemoryExplainabilityStore ε).run calls) := by
  obtain ⟨hreplies, hstates, -⟩ := Machine.bisimulation_run (sqliteExplainabilityStore codec)
    (inMemoryExplainabilityStore ε) (R := fun s m => Corresponds codec s m ∧ m.Contract)
    (fun c => c.InDomain codec ∧ c.Faithful codec) ⟨corresponds_new, MemoryState.contract_new⟩
    (fun s m c hc h => by
      obtain ⟨hresult, hstate⟩ := call_corresponds h.1 h.2 hc.1 hc.2
      exact ⟨hresult, hstate, h.2.call c⟩)
    calls (fun c hc => ⟨hdomain c hc, hfaithful c hc⟩)
  exact ⟨hreplies, hstates⟩

/-! ### A sample codec and sample runs -/

/-- How `serde_json` writes and reads a `QueryStarted` event without query text, given by its
method. -/
def queryStartedCodec : EventCodec ExplainabilityQueryMethod where
  Value := ExplainabilityQueryMethod
  toValue := some
  typeOf _ := some "query_started"
  toText method := some (text method)
  parse value := [.basic, .local, .global, .drift].find? fun method => text method = value
  fromValue := some
where
  /-- The object with its keys in order. -/
  text (method : ExplainabilityQueryMethod) : String :=
    "\x7b\"method\":\"" ++ method.toSqlText ++ "\",\"type\":\"query_started\"\x7d"

/-- A pending query run. -/
def sampleRun (startedAt : DateTime) : ExplainabilityRun where
  runId := ⟨"run-1", by decide⟩
  kind := .query
  status := .pending
  query := none
  queryMethod := some .local
  startedAt := startedAt
  completedAt := none
  compatibilityProfile := none
  eventCount := 0

/-- The middle of the leap second at the end of 2016. -/
def leapSecond : DateTime := ⟨2016, 12, 31, 23, 59, 59, 1500000000, by decide⟩

/-- The same leap second attached to the 30th second of the minute. -/
def strayLeapSecond : DateTime := ⟨2016, 12, 31, 23, 59, 30, 1500000000, by decide⟩

/-- Create a run, append an event to it, complete it and read everything back. -/
def sampleCalls : List (StoreCall ExplainabilityQueryMethod) :=
  let run := sampleRun leapSecond
  [.createRun run,
    .appendEvents [⟨1, 1, ⟨run.runId, leapSecond, ⟨"span-1", by decide⟩, none, .local⟩, rfl,
      by decide⟩],
    .completeRun ⟨run.runId, .completed, leapSecond⟩,
    .getRun run.runId,
    .loadEvents run.runId ⟨none, 10⟩]

theorem sqliteExplainabilityStore_agrees_sample :
    (sqliteExplainabilityStore queryStartedCodec).replies sampleCalls =
      (inMemoryExplainabilityStore ExplainabilityQueryMethod).replies sampleCalls := by
  have hyear : leapSecond.FourDigitYear := by decide
  have hleap : leapSecond.StandardLeapSecond := by decide
  refine (sqliteExplainabilityStore_agrees queryStartedCodec sampleCalls ?_ ?_).1
  · simp only [sampleCalls, List.forall_mem_cons, List.not_mem_nil, false_implies, implies_true,
      StoreCall.InDomain, and_true]
    exact ⟨hyear, ⟨by decide, hyear, _, _, _, rfl, rfl, rfl⟩, hyear⟩
  · simp only [sampleCalls, List.forall_mem_cons, List.not_mem_nil, false_implies, implies_true,
      StoreCall.Faithful, and_true]
    exact ⟨hleap, ⟨hleap, _, _, _, _, rfl, rfl, rfl, rfl, rfl, rfl⟩, hleap⟩

/-- The stores disagree on a run that starts at a stray leap second: the SQLite store gives back the
start as the half second after the 31st second. -/
theorem sqliteExplainabilityStore_strayLeapSecond :
    ¬ ∀ calls : List (StoreCall ExplainabilityQueryMethod),
      (∀ c ∈ calls, c.InDomain queryStartedCodec) →
      (sqliteExplainabilityStore queryStartedCodec).replies calls =
        (inMemoryExplainabilityStore ExplainabilityQueryMethod).replies calls := by
  intro h
  have hcalls := h [.createRun (sampleRun strayLeapSecond),
    .getRun (sampleRun strayLeapSecond).runId] (by
      simp only [List.forall_mem_cons, List.not_mem_nil, false_implies, implies_true,
        StoreCall.InDomain, and_true]
      exact ⟨by decide, by decide⟩)
  revert hcalls
  decide

end GraphLoom.Explainability
