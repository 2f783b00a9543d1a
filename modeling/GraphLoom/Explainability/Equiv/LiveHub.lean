import GraphLoom.Explainability.Equiv.StoreRecorder
import GraphLoom.Explainability.LiveHub

/-!
# The hub follows the store

The writer appends an envelope, commits its sequence to the channel and sends it, one envelope after
the other, so what went through a channel is a prefix of the stored events, and a channel whose run
is still in the map lacks at most the envelope the writer has in hand (`Published`).  A channel
leaves the map only when its run takes no more events (`RecorderState.Closed`).
-/

namespace GraphLoom.Explainability

open Foundation ExplainabilityLiveHub
open Function (update)

variable {ε τ : Type}

/-! ### What the writer does to the hub -/

/-- What the writer is about to do to the hub. -/
inductive WriterStage (ε : Type) where
  | quiet
  | registering (id : ExplainabilityRunId)
  | publishing (envelope : ExplainabilityEnvelope ε)
  | sending (envelope : ExplainabilityEnvelope ε)
  -- it takes no more records
  | stopping

/-- The stage of a writer. -/
def WriterState.stage : WriterState ε τ → WriterStage ε
  | .registering run _ => .registering run.runId
  | .publishing envelope => .publishing envelope
  | .sending envelope => .sending envelope
  | .closingAll _ _ | .acknowledging _ | .returning _ | .guarding _ | .failingGates _ _
  | .closingRuns _ _ | .ended _ => .stopping
  | .receiving | .handling _ | .inserting _ _ | .closing _ _ | .answering _ _ => .quiet

/-- The stored events of a run that its channel does not carry yet. -/
def WriterStage.unsent (stage : WriterStage ε) (id : ExplainabilityRunId) :
    List (ExplainabilityEnvelope ε) :=
  match stage with
  | .publishing envelope | .sending envelope => if envelope.record.runId = id then [envelope] else []
  | .quiet | .registering _ | .stopping => []

/-- A step of the recorder as the hub sees it. -/
inductive Publication (r r' : RecorderState ε τ) : RecorderAction ε → Prop
  | works (action : RecorderAction ε)
      (unseen : ∀ hub : ExplainabilityLiveHub ε, hub.perform action = hub)
      (stage : r'.writer.stage = r.writer.stage ∨
        r.writer.stage = .quiet ∧ r'.writer.stage = .stopping)
      (events : r'.store.eventsOf = r.store.eventsOf)
      (runs : ∀ id ∈ r'.store.runs, id ∈ r.store.runs) : Publication r r' action
  | created (run : ExplainabilityRun) (before : r.writer.stage = .quiet)
      (after : r'.writer.stage = .registering run.runId)
      (events : r'.store.eventsOf = r.store.eventsOf)
      (runs : ∀ id ∈ r'.store.runs, id ∈ r.store.runs ∨ id = run.runId) :
      Publication r r' (.storeCreate run)
  | registered (id : ExplainabilityRunId) (before : r.writer.stage = .registering id)
      (after : r'.writer.stage = .quiet) (store : r'.store = r.store) :
      Publication r r' (.hubRegister id)
  | appended (envelope : ExplainabilityEnvelope ε) (before : r.writer.stage = .quiet)
      (after : r'.writer.stage = .publishing envelope)
      (events : r'.store.eventsOf = update r.store.eventsOf envelope.record.runId
        (r.store.eventsOf envelope.record.runId ++ [envelope]))
      (bounded : envelope.sequence ≤ u64Max) (runs : ∀ id ∈ r'.store.runs, id ∈ r.store.runs) :
      Publication r r' (.storeAppend envelope)
  | committed (envelope : ExplainabilityEnvelope ε) (before : r.writer.stage = .publishing envelope)
      (after : r'.writer.stage = .sending envelope) (store : r'.store = r.store) :
      Publication r r' (.hubSequence envelope)
  | sent (envelope : ExplainabilityEnvelope ε) (before : r.writer.stage = .sending envelope)
      (after : r'.writer.stage = .quiet) (store : r'.store = r.store) :
      Publication r r' (.hubSend envelope)
  | closed (id : ExplainabilityRunId)
      (ended : r.runs.phase id = .closed ∨ r.writer.stage = .stopping)
      (stage : r'.writer.stage = r.writer.stage) (store : r'.store = r.store) :
      Publication r r' (.hubClose id)

/-- Calls that do not create a run store no new run. -/
theorem Effect.mem_runs {m m' : MemoryState ε} {call : StoreCall ε} {result : StoreResult ε}
    (h : Effect m call result m') {id : ExplainabilityRunId} (hid : id ∈ m'.runs) :
    id ∈ m.runs ∨ ∃ run, call = .createRun run ∧ id = run.runId := by
  cases h with
  | failed | gotRun | listedRuns | loadedEvents | emptyBatch | repeatedCompletion =>
    exact Or.inl hid
  | created run valid fresh =>
    rcases (AList.mem_insert _).mp hid with rfl | hid
    · exact Or.inr ⟨run, rfl, rfl⟩
    · exact Or.inl hid
  | appended id' run batch stored open_ owned sequences bounded =>
    rcases (AList.mem_insert _).mp hid with rfl | hid
    · exact Or.inl (MemoryState.mem_runs_iff.mpr ⟨run, stored⟩)
    · exact Or.inl hid
  | completed completion run terminal stored open_ notBefore =>
    rcases (AList.mem_insert _).mp hid with rfl | hid
    · exact Or.inl (MemoryState.mem_runs_iff.mpr ⟨run, stored⟩)
    · exact Or.inl hid
  | deleted id' => exact Or.inl (AList.mem_erase.mp hid).2

variable {envelope : ExplainabilityEnvelope ε}

/-- `persist_record` never numbers a record past the largest sequence. -/
theorem nextEnvelope_sequence_le {r : RecorderState ε τ} {record : ExplainabilityRecord ε}
    (h : r.nextEnvelope record = .ok envelope) :
    envelope.sequence ≤ u64Max := by
  unfold RecorderState.nextEnvelope at h
  split at h
  · cases h
  · split at h
    · cases h
    · split at h
      · cases h
      · next sequence hnext =>
        obtain ⟨hle, rfl⟩ := checkedAdd_eq_some.mp hnext
        unfold ExplainabilityEnvelope.new at h
        split at h
        · rw [Except.mapError, Except.ok.injEq] at h
          rw [← h]
          exact hle
        · cases h

theorem WriterStep.publication [DecidableEq τ] {r r' : RecorderState ε τ}
    {action : RecorderAction ε} (hr : r.Valid) (h : WriterStep r action r') :
    Publication r r' action := by
  have hsame : ∀ id ∈ r.store.runs, id ∈ r.store.runs := fun _ h => h
  have hunseen : ∀ hub : ExplainabilityLiveHub ε, hub.perform .internal = hub := fun _ => rfl
  cases h with
  | receive command rest at_ =>
    exact .works _ hunseen (Or.inl (by rw [at_]; rfl)) rfl hsame
  | lost at_ => exact .works _ hunseen (Or.inr ⟨by rw [at_]; rfl, rfl⟩) rfl hsame
  | createRegistered run t at_ | insert run t at_ | finishVoid id t gate at_
  | completeUnfinished completion t at_ | answer t response at_ =>
    exact .works _ hunseen (Or.inl (by rw [at_]; rfl)) rfl hsame
  | createFailed run t error store at_ new answer =>
    refine .works _ hunseen (Or.inl (by rw [at_]; rfl)) (answer.createRun hr.store).2 ?_
    intro id hid
    cases (answer.effect (.createRun run) rfl)
    exact hid
  | create run t store at_ new answer =>
    refine .created run (by rw [at_]; rfl) rfl (answer.createRun hr.store).2 fun id hid => ?_
    rcases (answer.effect (.createRun run) rfl).mem_runs hid with h | ⟨run', hrun, h⟩
    · exact Or.inl h
    · rw [StoreCall.createRun.inj hrun]
      exact Or.inr h
  | register run t at_ => exact .registered _ (by rw [at_]; rfl) rfl rfl
  | persistRejected record error at_ =>
    exact .works _ hunseen (Or.inr ⟨by rw [at_]; rfl, rfl⟩) rfl hsame
  | persistFailed record envelope error store at_ next answer =>
    rw [answer.appendEvents_failed rfl]
    exact .works _ hunseen (Or.inr ⟨by rw [at_]; rfl, rfl⟩) rfl hsame
  | persist record envelope store at_ next answer =>
    refine .appended envelope (by rw [at_]; rfl) rfl (answer.appendEvents hr.store rfl).2
      (nextEnvelope_sequence_le next) fun id hid => ?_
    refine ((answer.effect (.appendEvents [envelope]) rfl).mem_runs hid).resolve_right ?_
    rintro ⟨run, hrun, -⟩
    cases hrun
  | publish envelope at_ => exact .committed envelope (by rw [at_]; rfl) rfl rfl
  | send envelope at_ => exact .sent envelope (by rw [at_]; rfl) rfl rfl
  | finish id t gate at_ => exact .works _ hunseen (Or.inl (by rw [at_]; rfl)) rfl hsame
  | close id t at_ =>
    have hclosed : (WriterState.closing id t : WriterState ε τ).Ok r.runs := at_ ▸ hr.writer
    exact .closed id (Or.inl hclosed) (by rw [at_]; rfl) rfl
  | complete completion t result store at_ finished answer =>
    refine .works _ (fun _ => rfl) (Or.inl (by rw [at_]; rfl)) (answer.completeRun hr.store).2
      fun id hid => ?_
    refine ((answer.effect (.completeRun completion) rfl).mem_runs hid).resolve_right ?_
    rintro ⟨run, hrun, -⟩
    cases hrun
  | shutdown t at_ => exact .works _ hunseen (Or.inr ⟨by rw [at_]; rfl, rfl⟩) rfl hsame
  | closeNext id ids t at_ =>
    exact .closed id (Or.inr (by rw [at_]; rfl)) (by rw [at_]; rfl) rfl
  | closed t at_ | acknowledge t at_ =>
    exact .works _ hunseen (Or.inl (by rw [at_]; rfl)) rfl hsame
  | dropQueue result at_ | guardClosed result at_ | guardFailed result at_
  | gatesFailed result at_ | finishGuard result at_ =>
    exact .works _ hunseen (Or.inl (by rw [at_]; rfl)) rfl hsame
  | passGate id ids result gate at_ | failGate id ids result gate at_ =>
    exact .works _ hunseen (Or.inl (by rw [at_]; rfl)) rfl hsame
  | closeRun id ids result at_ =>
    exact .closed id (Or.inr (by rw [at_]; rfl)) (by rw [at_]; rfl) rfl

/-- Tasks do nothing to the hub. -/
theorem TaskEffect.publication [DecidableEq τ] {r r' : RecorderState ε τ} {t : τ}
    (h : TaskEffect r r' t) : Publication r r' .internal :=
  .works _ (fun _ => rfl) (Or.inl (by rw [h.writer])) (by rw [h.store]) (by
    rw [h.store]
    exact fun _ h => h)

/-- Every step of the recorder as the hub sees it. -/
theorem RecorderStep.publication [DecidableEq τ] {capacity : ℕ} {r r' : RecorderState ε τ}
    {action : RecorderAction ε} (hr : r.Valid) (h : RecorderStep capacity r action r') :
    Publication r r' action := by
  cases h with
  | emit t step => exact (step.effect hr).publication
  | finishRun t step => exact (step.effect hr).publication
  | control t step => exact step.effect.publication
  | shutdown t step => exact step.effect.publication
  | cancel t waiting => exact (cancel_effect hr t).publication
  | writer step => exact step.publication hr

/-! ### The channels -/

variable {f : LiveRunChannel ε → LiveRunChannel ε}

namespace ExplainabilityLiveHub

variable {hub : ExplainabilityLiveHub ε} {id : ExplainabilityRunId}

@[simp]
theorem modify_runs (hub : ExplainabilityLiveHub ε) (id : ExplainabilityRunId)
    (f : LiveRunChannel ε → LiveRunChannel ε) : (hub.modify id f).runs = hub.runs := by
  unfold modify
  split <;> rfl

theorem modify_channels (hub : ExplainabilityLiveHub ε) (id : ExplainabilityRunId)
    (f : LiveRunChannel ε → LiveRunChannel ε) (index : ℕ) :
    (hub.modify id f).channels[index]? =
      if hub.runs.lookup id = some index then hub.channels[index]?.map f
      else hub.channels[index]? := by
  unfold modify
  split
  · next h => simp [h]
  · next index' h =>
    rw [h, List.getElem?_modify]
    by_cases hindex : index' = index
    · simp [hindex]
    · simp [hindex]

/-- A changed channel was there before. -/
theorem modify_channels_some {index : ℕ}
    {channel : LiveRunChannel ε} (h : (hub.modify id f).channels[index]? = some channel) :
    (hub.runs.lookup id = some index ∧
      ∃ channel₀, hub.channels[index]? = some channel₀ ∧ channel = f channel₀) ∨
    hub.runs.lookup id ≠ some index ∧ hub.channels[index]? = some channel := by
  rw [modify_channels] at h
  by_cases hindex : hub.runs.lookup id = some index
  · rw [ite_cond_eq_true _ _ (eq_true hindex), Option.map_eq_some_iff] at h
    obtain ⟨channel₀, h, rfl⟩ := h
    exact Or.inl ⟨hindex, channel₀, h, rfl⟩
  · rw [ite_cond_eq_false _ _ (eq_false hindex)] at h
    exact Or.inr ⟨hindex, h⟩

/-- The channels grow: those that exist stay, for their runs, with what they carried. -/
def Grows (hub hub' : ExplainabilityLiveHub ε) : Prop :=
  ∀ (index : ℕ) (channel : LiveRunChannel ε), hub.channels[index]? = some channel →
    ∃ channel' : LiveRunChannel ε, hub'.channels[index]? = some channel' ∧ channel'.runId = channel.runId ∧
      channel.sent.length ≤ channel'.sent.length

theorem modify_grows (hub : ExplainabilityLiveHub ε) (id : ExplainabilityRunId)
    (hid : ∀ channel, (f channel).runId = channel.runId)
    (hsent : ∀ channel, channel.sent.length ≤ (f channel).sent.length) :
    hub.Grows (hub.modify id f) := by
  intro index channel h
  rw [modify_channels, h]
  by_cases hindex : hub.runs.lookup id = some index
  · rw [ite_cond_eq_true _ _ (eq_true hindex), Option.map_some]
    exact ⟨_, rfl, hid channel, hsent channel⟩
  · rw [ite_cond_eq_false _ _ (eq_false hindex)]
    exact ⟨_, rfl, rfl, le_refl _⟩

theorem registerRun_grows (hub : ExplainabilityLiveHub ε) (id : ExplainabilityRunId) :
    hub.Grows (hub.registerRun id) := by
  intro index channel h
  refine ⟨channel, ?_, rfl, le_refl _⟩
  unfold registerRun
  split
  · exact h
  · exact List.getElem?_append_left (List.getElem?_eq_some_iff.mp h).1 ▸ h

theorem perform_grows (hub : ExplainabilityLiveHub ε) (action : RecorderAction ε) :
    hub.Grows (hub.perform action) := by
  have hrefl : hub.Grows hub := fun index channel h => ⟨channel, h, rfl, le_refl _⟩
  cases action with
  | internal | storeCreate | storeAppend | storeComplete | hubClose => exact hrefl
  | hubRegister id => exact hub.registerRun_grows id
  | hubSequence envelope => exact hub.modify_grows _ (fun _ => rfl) fun _ => le_refl _
  | hubSend envelope =>
    refine hub.modify_grows _ (fun _ => rfl) fun channel => ?_
    show channel.sent.length ≤ (channel.sent ++ [envelope]).length
    rw [List.length_append]
    omega

end ExplainabilityLiveHub

/-! ### Closed runs -/

section Closed

variable [DecidableEq τ] {capacity : ℕ} {r r' : RecorderState ε τ} {hub : ExplainabilityLiveHub ε}
  {action : RecorderAction ε} {id : ExplainabilityRunId}

/-- The recorder has closed a run: it took the run's channel away, after the run was finished or
because the writer stops. -/
def RecorderState.Closed (r : RecorderState ε τ) (hub : ExplainabilityLiveHub ε)
    (id : ExplainabilityRunId) : Prop :=
  id ∉ hub.runs ∧ (r.runs.phase id = .closed ∨ r.writer.stage = .stopping)

/-- A run that is not registered has no events. -/
theorem eventsOf_of_absent (hr : (storeExplainabilityRecorder ε τ capacity).Reachable r)
    (habsent : r.runs.phase id = .absent) : r.store.eventsOf id = [] := by
  have hmailbox := Mailbox.valid_of_reachable (storeExplainabilityRecorder_refines.reachable hr)
  have hprefix : r.persistedOf id <+: r.acceptedOf id := hmailbox.inOrder id
  rw [show r.acceptedOf id = [] from hmailbox.absent id habsent, List.prefix_nil] at hprefix
  exact List.map_eq_nil_iff.mp hprefix

omit [DecidableEq τ] in
/-- A run about to be registered in the hub is not registered with the recorder. -/
theorem absent_of_registering (hr : r.Valid) (h : r.writer.stage = .registering id) :
    r.runs.phase id = .absent := by
  have hok := hr.writer
  cases hwriter : r.writer with
  | registering run t =>
    rw [hwriter] at h hok
    rw [← WriterStage.registering.inj h]
    exact hok
  | _ =>
    rw [hwriter] at h
    cases h

/-- A closed run stays closed and takes no more events. -/
theorem RecorderState.Closed.step
    (hr : (storeExplainabilityRecorder ε τ capacity).Reachable r)
    (hstep : RecorderStep capacity r action r') (hclosed : r.Closed hub id) :
    r'.Closed (hub.perform action) id ∧ r'.store.eventsOf id = r.store.eventsOf id := by
  have hvalid := storeExplainabilityRecorder_valid hr
  have hpublication := hstep.publication hvalid
  obtain ⟨hhub, hover⟩ := hclosed
  rcases hover with hphase | hstopping
  · obtain ⟨hphase', -, hpersisted⟩ := finished_stable hr hphase (.single hstep)
    have hvalid' := (hstep.effect hvalid).1
    refine ⟨⟨?_, Or.inl hphase'⟩,
      eventsOf_eq_of_persistedOf hvalid.store hvalid'.store hpersisted⟩
    cases hpublication with
    | works _ unseen =>
      rw [unseen]
      exact hhub
    | created | appended => exact hhub
    | registered id' before =>
      -- another run is registered: this one is not new
      have hne : id ≠ id' := by
        rintro rfl
        rw [absent_of_registering hvalid before] at hphase
        cases hphase
      show id ∉ (hub.registerRun id').runs
      unfold registerRun
      split
      · exact hhub
      · intro h
        exact ((AList.mem_insert _).mp h).elim hne hhub
    | committed | sent =>
      show id ∉ (hub.modify _ _).runs
      rw [modify_runs]
      exact hhub
    | closed id' => exact fun h => hhub (AList.mem_erase.mp h).2
  · cases hpublication with
    | works _ unseen stage events =>
      rw [unseen]
      refine ⟨⟨hhub, Or.inr ?_⟩, congrFun events id⟩
      rcases stage with h | h
      · exact h.trans hstopping
      · exact h.2
    | created _ before | registered _ before | appended _ before | committed _ before
    | sent _ before =>
      rw [hstopping] at before
      cases before
    | closed id' ended stage store =>
      exact ⟨⟨fun h => hhub (AList.mem_erase.mp h).2, Or.inr (stage.trans hstopping)⟩,
        by rw [store]⟩

end Closed

/-! ### The channels carry the stored events -/

/-- The last stored event is numbered by the number of stored events. -/
theorem sequence_eq_of_concat {m : MemoryState ε} (hm : m.Contract) {id : ExplainabilityRunId}
    {sent : List (ExplainabilityEnvelope ε)}
    (h : m.eventsOf id = sent ++ [envelope]) : envelope.sequence = (m.eventsOf id).length := by
  have hsequences := congrArg (·[sent.length]?) (hm.sequences id)
  rw [h] at hsequences ⊢
  simp at hsequences
  rw [List.length_append, List.length_singleton]
  omega

/-- The hub follows the store. -/
structure Published (r : RecorderState ε τ) (hub : ExplainabilityLiveHub ε) : Prop where
  /-- A channel carries a beginning of its run's events and has committed that much, and no more
  than is stored. -/
  channel : ∀ (index : ℕ) (channel : LiveRunChannel ε), hub.channels[index]? = some channel →
    channel.sent <+: r.store.eventsOf channel.runId ∧
      channel.sent.length ≤ channel.lastSequence ∧
      channel.lastSequence ≤ (r.store.eventsOf channel.runId).length
  entry : ∀ (id : ExplainabilityRunId) (index : ℕ), hub.runs.lookup id = some index →
    ∃ channel : LiveRunChannel ε, hub.channels[index]? = some channel ∧ channel.runId = id
  /-- The channel of a live run lacks only what the writer has in hand. -/
  current : ∀ (id : ExplainabilityRunId) (index : ℕ) (channel : LiveRunChannel ε),
    hub.runs.lookup id = some index → hub.channels[index]? = some channel →
    r.store.eventsOf id = channel.sent ++ r.writer.stage.unsent id
  committed : ∀ (envelope : ExplainabilityEnvelope ε) (index : ℕ) (channel : LiveRunChannel ε),
    r.writer.stage = .sending envelope → hub.runs.lookup envelope.record.runId = some index →
    hub.channels[index]? = some channel →
    channel.lastSequence = (r.store.eventsOf envelope.record.runId).length
  /-- A channel is in the map until its run is closed. -/
  closed : ∀ (index : ℕ) (channel : LiveRunChannel ε), hub.channels[index]? = some channel →
    hub.runs.lookup channel.runId = some index ∨ r.Closed hub channel.runId
  /-- A stored run has a channel, unless the writer is just about to make it. -/
  known : ∀ id ∈ r.store.runs,
    (∃ (index : ℕ) (channel : LiveRunChannel ε), hub.channels[index]? = some channel ∧
      channel.runId = id) ∨ r.writer.stage = .registering id
  bounded : ∀ id, ∀ envelope ∈ r.store.eventsOf id, envelope.sequence ≤ u64Max

theorem published_new : Published (RecorderState.new : RecorderState ε τ) .new where
  channel _ _ h := by cases h
  entry _ _ h := by
    rw [show (new : ExplainabilityLiveHub ε).runs = ∅ from rfl,
      AList.lookup_empty] at h
    cases h
  current _ _ _ _ h := by cases h
  committed _ _ _ h := by cases h
  closed _ _ h := by cases h
  known _ h := absurd h (AList.notMem_empty _)
  bounded id envelope h := by
    rw [show (RecorderState.new : RecorderState ε τ).store = .new from rfl,
      MemoryState.eventsOf_new] at h
    cases h

namespace Published

section Steps

variable [DecidableEq τ] {capacity : ℕ} {r r' : RecorderState ε τ} {hub : ExplainabilityLiveHub ε}
  {action : RecorderAction ε}
  (h : Published r hub) (hr : (storeExplainabilityRecorder ε τ capacity).Reachable r)
include h hr

/-- The channels that closed stay closed. -/
theorem closed_step
    (hstep : RecorderStep capacity r action r') (index : ℕ) (channel : LiveRunChannel ε)
    (hchannel : hub.channels[index]? = some channel)
    (kept : ∀ index', hub.runs.lookup channel.runId = some index' →
      (hub.perform action).runs.lookup channel.runId = some index') :
    (hub.perform action).runs.lookup channel.runId = some index ∨
      r'.Closed (hub.perform action) channel.runId := by
  rcases h.closed index channel hchannel with hlookup | hclosed
  · exact Or.inl (kept index hlookup)
  · exact Or.inr (hclosed.step hr hstep).1

/-- A step that leaves the hub and adds no event. -/
theorem works (hstep : RecorderStep capacity r action r') (unseen : hub.perform action = hub)
    (unsent : ∀ id, r'.writer.stage.unsent id = r.writer.stage.unsent id)
    (sending : ∀ envelope, r'.writer.stage = .sending envelope →
      r.writer.stage = .sending envelope)
    (events : r'.store.eventsOf = r.store.eventsOf)
    (known : ∀ id ∈ r'.store.runs,
      (id ∈ r.store.runs ∧
        (r.writer.stage = .registering id → r'.writer.stage = .registering id)) ∨
      r'.writer.stage = .registering id) :
    Published r' (hub.perform action) := by
  have hclosed := fun index channel hchannel =>
    h.closed_step hr hstep index channel hchannel
  rw [unseen] at hclosed ⊢
  refine ⟨?_, h.entry, ?_, ?_, fun index channel hchannel =>
    hclosed index channel hchannel fun _ h => h, ?_, ?_⟩
  · rw [events]
    exact h.channel
  · intro id index channel hlookup hchannel
    rw [events, unsent]
    exact h.current id index channel hlookup hchannel
  · intro envelope index channel hsending hlookup hchannel
    rw [events]
    exact h.committed envelope index channel (sending envelope hsending) hlookup hchannel
  · intro id hid
    rcases known id hid with ⟨hmem, hkept⟩ | hregistering
    · exact (h.known id hmem).imp_right hkept
    · exact Or.inr hregistering
  · rw [events]
    exact h.bounded

/-- The store got one more event; the writer has it in hand. -/
theorem appended
    (hstep : RecorderStep capacity r (.storeAppend envelope) r') (before : r.writer.stage = .quiet)
    (after : r'.writer.stage = .publishing envelope)
    (events : r'.store.eventsOf = update r.store.eventsOf envelope.record.runId
      (r.store.eventsOf envelope.record.runId ++ [envelope]))
    (bounded : envelope.sequence ≤ u64Max) (runs : ∀ id ∈ r'.store.runs, id ∈ r.store.runs) :
    Published r' (hub.perform (.storeAppend envelope)) := by
  have hevents : ∀ id, r'.store.eventsOf id =
      r.store.eventsOf id ++ (WriterStage.publishing envelope).unsent id := by
    intro id
    rw [events, WriterStage.unsent]
    by_cases hid : id = envelope.record.runId
    · rw [hid, Function.update_self, ite_cond_eq_true _ _ (eq_true rfl)]
    · rw [Function.update_of_ne hid, ite_cond_eq_false _ _ (eq_false (Ne.symm hid)),
        List.append_nil]
  refine ⟨?_, h.entry, ?_, ?_, ?_, ?_, ?_⟩
  · intro index channel hchannel
    obtain ⟨hsent, hcommitted, hstored⟩ := h.channel index channel hchannel
    rw [hevents]
    refine ⟨hsent.trans (List.prefix_append _ _), hcommitted, ?_⟩
    rw [List.length_append]
    omega
  · intro id index channel hlookup hchannel
    have hcurrent := h.current id index channel hlookup hchannel
    rw [before, show WriterStage.quiet.unsent id = ([] : List (ExplainabilityEnvelope ε)) from rfl,
      List.append_nil] at hcurrent
    rw [after, hevents, hcurrent]
  · intro envelope' index channel hsending
    rw [after] at hsending
    cases hsending
  · exact fun index channel hchannel =>
      h.closed_step hr hstep _ _ hchannel fun _ h => h
  · intro id hid
    refine Or.inl ((h.known id (runs id hid)).resolve_right ?_)
    rw [before]
    exact fun h => by cases h
  · intro id envelope' hmem
    rw [hevents, List.mem_append] at hmem
    rcases hmem with hmem | hmem
    · exact h.bounded id envelope' hmem
    · rw [WriterStage.unsent] at hmem
      split at hmem
      · rw [List.mem_singleton.mp hmem]
        exact bounded
      · cases hmem

/-- The channel of the envelope in hand changes, if its run is live. -/
theorem modified (hstep : RecorderStep capacity r action r')
    (perform : hub.perform action = hub.modify envelope.record.runId f)
    (runId : ∀ channel, (f channel).runId = channel.runId) (store : r'.store = r.store)
    (other : ∀ id, id ≠ envelope.record.runId →
      r'.writer.stage.unsent id = r.writer.stage.unsent id)
    (registering : ∀ id, r.writer.stage ≠ .registering id)
    (own : ∀ index channel, hub.runs.lookup envelope.record.runId = some index →
      hub.channels[index]? = some channel →
      r.store.eventsOf envelope.record.runId =
        (f channel).sent ++ r'.writer.stage.unsent envelope.record.runId ∧
      (f channel).sent.length ≤ (f channel).lastSequence ∧
      (f channel).lastSequence = (r.store.eventsOf envelope.record.runId).length)
    (sending : ∀ envelope', r'.writer.stage = .sending envelope' → envelope' = envelope) :
    Published r' (hub.perform action) := by
  have hclosed := fun index channel hchannel =>
    h.closed_step hr hstep index channel hchannel
  rw [perform] at hclosed ⊢
  rw [modify_runs] at hclosed
  have hentry : ∀ {id index}, hub.runs.lookup id = some index →
      ∃ channel, hub.channels[index]? = some channel ∧ channel.runId = id :=
    fun hlookup => h.entry _ _ hlookup
  -- the changed channel is the one of the envelope's run
  have hrun : ∀ {index channel}, hub.runs.lookup envelope.record.runId = some index →
      hub.channels[index]? = some channel → channel.runId = envelope.record.runId := by
    intro index channel hlookup hchannel
    obtain ⟨channel', hchannel', hid⟩ := hentry hlookup
    rw [hchannel] at hchannel'
    rw [Option.some.inj hchannel', hid]
  refine ⟨?_, ?_, ?_, ?_, ?_, ?_, ?_⟩
  · intro index channel hchannel
    rw [store]
    rcases modify_channels_some hchannel with
      ⟨hlookup, channel₀, hchannel₀, rfl⟩ | ⟨-, hchannel⟩
    · obtain ⟨hevents, hsent, hcommitted⟩ := own index channel₀ hlookup hchannel₀
      rw [runId, hrun hlookup hchannel₀]
      refine ⟨?_, hsent, hcommitted.le⟩
      rw [hevents]
      exact List.prefix_append _ _
    · exact h.channel index channel hchannel
  · intro id index hlookup
    rw [modify_runs] at hlookup
    obtain ⟨channel, hchannel, hid⟩ := hentry hlookup
    obtain ⟨channel', hchannel', hid', -⟩ : ∃ channel',
        (hub.modify envelope.record.runId f).channels[index]? = some channel' ∧
        channel'.runId = channel.runId ∧ True := by
      rw [modify_channels, hchannel]
      split
      · exact ⟨_, rfl, runId channel, trivial⟩
      · exact ⟨_, rfl, rfl, trivial⟩
    exact ⟨channel', hchannel', hid'.trans hid⟩
  · intro id index channel hlookup hchannel
    rw [modify_runs] at hlookup
    rw [store]
    rcases modify_channels_some hchannel with
      ⟨hlookup', channel₀, hchannel₀, rfl⟩ | ⟨hne, hchannel⟩
    · obtain ⟨channel₁, hchannel₁, hid⟩ := hentry hlookup
      rw [hchannel₀] at hchannel₁
      rw [← hid, ← Option.some.inj hchannel₁, hrun hlookup' hchannel₀]
      exact (own index channel₀ hlookup' hchannel₀).1
    · have hid : id ≠ envelope.record.runId := by
        rintro rfl
        exact hne hlookup
      rw [other id hid]
      exact h.current id index channel hlookup hchannel
  · intro envelope' index channel hsending hlookup hchannel
    rw [modify_runs] at hlookup
    obtain rfl := sending envelope' hsending
    rw [store]
    rcases modify_channels_some hchannel with
      ⟨-, channel₀, hchannel₀, rfl⟩ | ⟨hne, -⟩
    · exact (own index channel₀ hlookup hchannel₀).2.2
    · exact absurd hlookup hne
  · intro index channel hchannel
    rw [modify_runs]
    rcases modify_channels_some hchannel with
      ⟨-, channel₀, hchannel₀, rfl⟩ | ⟨-, hchannel⟩
    · rw [runId]
      exact hclosed index channel₀ hchannel₀ fun _ h => h
    · exact hclosed index channel hchannel fun _ h => h
  · intro id hid
    rw [store] at hid
    obtain ⟨index, channel, hchannel, hrunId⟩ :=
      (h.known id hid).resolve_right (registering id)
    refine Or.inl ⟨index, ?_⟩
    rw [modify_channels, hchannel]
    split
    · exact ⟨_, rfl, (runId channel).trans hrunId⟩
    · exact ⟨_, rfl, hrunId⟩
  · rw [store]
    exact h.bounded

/-- The writer registers a run that has no events yet. -/
theorem registered {id : ExplainabilityRunId} (hstep : RecorderStep capacity r (.hubRegister id) r')
    (before : r.writer.stage = .registering id) (after : r'.writer.stage = .quiet)
    (store : r'.store = r.store) : Published r' (hub.perform (.hubRegister id)) := by
  have hnone : r.store.eventsOf id = [] :=
    eventsOf_of_absent hr (absent_of_registering (storeExplainabilityRecorder_valid hr) before)
  have hquiet : ∀ id', r.store.eventsOf id' ++ r'.writer.stage.unsent id' =
      r.store.eventsOf id' := by
    intro id'
    rw [after, show WriterStage.quiet.unsent id' = ([] : List (ExplainabilityEnvelope ε)) from rfl,
      List.append_nil]
  have hcurrent : ∀ (id' : ExplainabilityRunId) (index : ℕ) (channel : LiveRunChannel ε),
      hub.runs.lookup id' = some index → hub.channels[index]? = some channel →
      r.store.eventsOf id' = channel.sent ++ r'.writer.stage.unsent id' := by
    intro id' index channel hlookup hchannel
    rw [h.current id' index channel hlookup hchannel, before, after]
    rfl
  have hclosed := fun index channel hchannel =>
    h.closed_step hr hstep index channel hchannel
  change ∀ index channel, _ → (∀ index', _ → (hub.registerRun id).runs.lookup _ = _) →
    (hub.registerRun id).runs.lookup _ = _ ∨ r'.Closed (hub.registerRun id) _ at hclosed
  show Published r' (hub.registerRun id)
  unfold registerRun at hclosed ⊢
  by_cases hlive : id ∈ hub.runs
  · -- the run has a channel already, so nothing changes
    rw [ite_cond_eq_true _ _ (eq_true hlive)] at hclosed ⊢
    refine ⟨?_, h.entry, ?_, ?_, fun index channel hchannel =>
      hclosed index channel hchannel fun _ h => h, ?_, ?_⟩
    · rw [store]
      exact h.channel
    · rw [store]
      exact hcurrent
    · intro envelope index channel hsending
      rw [after] at hsending
      cases hsending
    · intro id' hid'
      rw [store] at hid'
      rcases h.known id' hid' with hknown | hregistering
      · exact Or.inl hknown
      · rw [before, WriterStage.registering.injEq] at hregistering
        obtain ⟨index, hindex⟩ := Option.isSome_iff_exists.mp (AList.lookup_isSome.mpr hlive)
        obtain ⟨channel, hchannel, hrun⟩ := h.entry id index hindex
        exact Or.inl ⟨index, channel, hchannel, hrun.trans hregistering⟩
    · rw [store]
      exact h.bounded
  · rw [ite_cond_eq_false _ _ (eq_false hlive)] at hclosed ⊢
    have hlookup : ∀ {id' index}, AList.lookup id' (hub.runs.insert id hub.channels.length) =
        some index → (id' = id ∧ index = hub.channels.length) ∨
          (id' ≠ id ∧ hub.runs.lookup id' = some index) := by
      intro id' index hl
      by_cases hid : id' = id
      · rw [hid, AList.lookup_insert] at hl
        exact Or.inl ⟨hid, (Option.some.inj hl).symm⟩
      · rw [AList.lookup_insert_ne hid] at hl
        exact Or.inr ⟨hid, hl⟩
    have hold : ∀ {index : ℕ} {channel : LiveRunChannel ε},
        hub.channels[index]? = some channel →
        (hub.channels ++ [⟨id, [], 0⟩])[index]? = some channel := by
      intro index channel hchannel
      rwa [List.getElem?_append_left (List.getElem?_eq_some_iff.mp hchannel).1]
    have hnew : (hub.channels ++ [(⟨id, [], 0⟩ : LiveRunChannel ε)])[hub.channels.length]? =
        some ⟨id, [], 0⟩ := by
      simp
    have hcases : ∀ {index : ℕ} {channel : LiveRunChannel ε},
        (hub.channels ++ [⟨id, [], 0⟩])[index]? = some channel →
        hub.channels[index]? = some channel ∨
          index = hub.channels.length ∧ channel = ⟨id, [], 0⟩ := by
      intro index channel hchannel
      rw [List.getElem?_append] at hchannel
      split at hchannel
      · exact Or.inl hchannel
      · rw [List.getElem?_singleton] at hchannel
        split at hchannel
        · refine Or.inr ⟨by omega, (Option.some.inj hchannel).symm⟩
        · cases hchannel
    refine ⟨?_, ?_, ?_, ?_, ?_, ?_, ?_⟩
    · intro index channel hchannel
      rw [store]
      rcases hcases hchannel with hchannel | ⟨-, rfl⟩
      · exact h.channel index channel hchannel
      · exact ⟨List.nil_prefix, le_refl _, Nat.zero_le _⟩
    · intro id' index hl
      rcases hlookup hl with ⟨rfl, rfl⟩ | ⟨-, hl⟩
      · exact ⟨_, hnew, rfl⟩
      · obtain ⟨channel, hchannel, hrun⟩ := h.entry id' index hl
        exact ⟨channel, hold hchannel, hrun⟩
    · intro id' index channel hl hchannel
      rw [store]
      rcases hlookup hl with ⟨rfl, rfl⟩ | ⟨-, hl⟩
      · rw [hnew] at hchannel
        rw [← Option.some.inj hchannel, hnone, after]
        rfl
      · obtain ⟨channel₀, hchannel₀, -⟩ := h.entry id' index hl
        rw [hold hchannel₀] at hchannel
        rw [← Option.some.inj hchannel]
        exact hcurrent id' index channel₀ hl hchannel₀
    · intro envelope index channel hsending
      rw [after] at hsending
      cases hsending
    · intro index channel hchannel
      rcases hcases hchannel with hchannel | ⟨rfl, rfl⟩
      · refine hclosed index channel hchannel fun index' hl => ?_
        have hne : channel.runId ≠ id := by
          rintro rfl
          exact hlive (AList.lookup_isSome.mp (by rw [hl]; rfl))
        show AList.lookup channel.runId (hub.runs.insert id hub.channels.length) = some index'
        rwa [AList.lookup_insert_ne hne]
      · exact Or.inl (AList.lookup_insert _)
    · intro id' hid'
      rw [store] at hid'
      rcases h.known id' hid' with ⟨index, channel, hchannel, hrun⟩ | hregistering
      · exact Or.inl ⟨index, channel, hold hchannel, hrun⟩
      · rw [before, WriterStage.registering.injEq] at hregistering
        exact Or.inl ⟨_, _, hnew, hregistering⟩
    · rw [store]
      exact h.bounded

/-- The recorder closes a run in the hub. -/
theorem closedRun {id : ExplainabilityRunId} (hstep : RecorderStep capacity r (.hubClose id) r')
    (ended : r.runs.phase id = .closed ∨ r.writer.stage = .stopping)
    (stage : r'.writer.stage = r.writer.stage) (store : r'.store = r.store) :
    Published r' (hub.perform (.hubClose id)) := by
  have hlookup : ∀ {id' index}, (hub.runs.erase id).lookup id' = some index →
      id' ≠ id ∧ hub.runs.lookup id' = some index := by
    intro id' index hl
    have hne : id' ≠ id := by
      rintro rfl
      rw [AList.lookup_erase] at hl
      cases hl
    rw [AList.lookup_erase_ne hne] at hl
    exact ⟨hne, hl⟩
  refine ⟨?_, fun id' index hl => h.entry id' index (hlookup hl).2, ?_, ?_, ?_, ?_, ?_⟩
  · rw [store]
    exact h.channel
  · intro id' index channel hl hchannel
    rw [store, stage]
    exact h.current id' index channel (hlookup hl).2 hchannel
  · intro envelope index channel hsending hl hchannel
    rw [stage] at hsending
    rw [store]
    exact h.committed envelope index channel hsending (hlookup hl).2 hchannel
  · intro index channel hchannel
    by_cases hid : channel.runId = id
    · refine Or.inr ⟨fun hmem => (AList.mem_erase.mp hmem).1 hid, ?_⟩
      rw [stage, hid]
      exact ended.imp_left fun hphase => (finished_stable hr hphase (.single hstep)).1
    · refine h.closed_step hr hstep _ _ hchannel fun index' hl => ?_
      show (hub.runs.erase id).lookup channel.runId = some index'
      rwa [AList.lookup_erase_ne hid]
  · intro id' hid'
    rw [store] at hid'
    rw [stage]
    exact h.known id' hid'
  · rw [store]
    exact h.bounded

/-- **The hub follows the store in every step of the recorder.** -/
theorem step (hstep : RecorderStep capacity r action r') : Published r' (hub.perform action) := by
  have hvalid := storeExplainabilityRecorder_valid hr
  have hpublication := hstep.publication hvalid
  cases hpublication with
  | works _ unseen stage events runs =>
    refine h.works hr hstep (unseen hub) ?_ ?_ events ?_
    · intro id
      rcases stage with hstage | ⟨hbefore, hafter⟩
      · rw [hstage]
      · rw [hbefore, hafter]
        rfl
    · intro envelope hsending
      rcases stage with hstage | ⟨-, hafter⟩
      · rwa [hstage] at hsending
      · rw [hafter] at hsending
        cases hsending
    · intro id hid
      refine Or.inl ⟨runs id hid, fun hregistering => ?_⟩
      rcases stage with hstage | ⟨hbefore, -⟩
      · rwa [hstage]
      · rw [hbefore] at hregistering
        cases hregistering
  | created run before after events runs =>
    refine h.works hr hstep rfl ?_ ?_ events ?_
    · intro id
      rw [before, after]
      rfl
    · intro envelope hsending
      rw [after] at hsending
      cases hsending
    · intro id hid
      rcases runs id hid with hid | rfl
      · refine Or.inl ⟨hid, fun hregistering => ?_⟩
        rw [before] at hregistering
        cases hregistering
      · exact Or.inr after
  | registered id before after store => exact h.registered hr hstep before after store
  | appended envelope before after events bounded runs =>
    exact h.appended hr hstep before after events bounded runs
  | committed envelope before after store =>
    refine h.modified hr hstep rfl (fun _ => rfl) store (fun id hid => ?_) (fun id h => ?_)
      (fun index channel hlookup hchannel => ?_) fun envelope' hsending => ?_
    · rw [before, after]
      rfl
    · rw [before] at h
      cases h
    · have hevents := h.current _ index channel hlookup hchannel
      rw [before, show (WriterStage.publishing envelope).unsent envelope.record.runId = [envelope]
        from ite_cond_eq_true _ _ (eq_true rfl)] at hevents
      have hsequence := sequence_eq_of_concat hvalid.store hevents
      refine ⟨?_, ?_, hsequence⟩
      · rw [hevents, after]
        exact congrArg _ (ite_cond_eq_true _ _ (eq_true rfl)).symm
      · show channel.sent.length ≤ envelope.sequence
        rw [hsequence, hevents, List.length_append]
        omega
    · rw [after] at hsending
      exact (WriterStage.sending.inj hsending).symm
  | sent envelope before after store =>
    refine h.modified hr hstep rfl (fun _ => rfl) store (fun id hid => ?_) (fun id h => ?_)
      (fun index channel hlookup hchannel => ?_) fun envelope' hsending => ?_
    · rw [before, after]
      exact (ite_cond_eq_false _ _ (eq_false (Ne.symm hid))).symm
    · rw [before] at h
      cases h
    · have hevents := h.current _ index channel hlookup hchannel
      rw [before, show (WriterStage.sending envelope).unsent envelope.record.runId = [envelope]
        from ite_cond_eq_true _ _ (eq_true rfl)] at hevents
      have hcommitted := h.committed envelope index channel before hlookup hchannel
      refine ⟨?_, ?_, hcommitted⟩
      · rw [hevents, after]
        exact (List.append_nil _).symm
      · show (channel.sent ++ [envelope]).length ≤ channel.lastSequence
        rw [hcommitted, hevents]
    · rw [after] at hsending
      cases hsending
  | closed id ended stage store => exact h.closedRun hr hstep ended stage store

end Steps

end Published

end GraphLoom.Explainability
