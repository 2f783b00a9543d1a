import GraphLoom.Explainability.Equiv.Store
import GraphLoom.Explainability.StoreRecorder
import GraphLoom.Foundation.Mailbox

/-!
# The store recorder loses, repeats and reorders nothing

Seen from outside, the recorder is a mailbox with a closing barrier: a run is open while its gate is
active, `emit` queues an item, `finish_run` stops the run and queues its closing mark, and the
writer consumes in order until it finds the mark or stops (`storeExplainabilityRecorder_refines`).

What makes each step one of the mailbox is who holds which permit.  A task between the gate check
and the send holds the run's permit, and only a holder takes an active gate out of that state, so
the gate is still active when the record is queued; a task about to queue the mark has left the gate
inactive, and nothing activates it again (`TaskOk`, `RegistryStep`).
-/

namespace GraphLoom.Explainability

open Foundation Registry
open Function (update)
open Function (update_of_ne update_self)

variable {ε τ : Type}

/-! ### The registry as two maps -/

/-- The phase a gate state stands for. -/
def GateState.phase : GateState → Mailbox.Phase
  | .active => .open
  | .finishing => .closing
  | .finished => .closed
  | .failedWriter | .failedClosed => .failed

@[simp]
theorem GateState.phase_eq_open_iff {state : GateState} : state.phase = .open ↔ state = .active := by
  cases state <;> simp [phase]

@[simp]
theorem GateState.phase_eq_closing_iff {state : GateState} :
    state.phase = .closing ↔ state = .finishing := by
  cases state <;> simp [phase]

@[simp]
theorem GateState.phase_eq_closed_iff {state : GateState} :
    state.phase = .closed ↔ state = .finished := by
  cases state <;> simp [phase]

@[simp]
theorem GateState.phase_ne_absent (state : GateState) : state.phase ≠ .absent := by
  cases state <;> simp [phase]

/-- An error never leaves a gate active. -/
theorem GateState.phase_ofError (error : ExplainabilitySinkError) :
    (GateState.ofError error).phase = .failed := by
  cases error <;> rfl

/-- A call that reads an answer off the gate returns `Ok` only from a finished one. -/
theorem finishStateResult_eq_ok_iff {state : GateState} :
    finishStateResult state = .ok () ↔ state = .finished := by
  cases state <;> simp [finishStateResult]

namespace Registry

/-- The phase of a run. -/
def phase (runs : Registry τ) (id : ExplainabilityRunId) : Mailbox.Phase :=
  match runs.lookup id with
  | none => .absent
  | some gate => gate.state.phase

/-- The task that holds the permit of a run. -/
def holder (runs : Registry τ) (id : ExplainabilityRunId) : Option τ :=
  (runs.lookup id).bind (·.admission)

variable {runs : Registry τ} {id : ExplainabilityRunId} {gate : RunGate τ}

theorem phase_of_lookup (found : runs.lookup id = some gate) : runs.phase id = gate.state.phase := by
  rw [phase, found]

theorem holder_of_lookup (found : runs.lookup id = some gate) : runs.holder id = gate.admission := by
  rw [holder, found, Option.bind_some]

theorem phase_eq_absent_iff : runs.phase id = .absent ↔ id ∉ runs := by
  rw [← AList.lookup_eq_none, phase]
  cases h : runs.lookup id with
  | none => simp
  | some gate => simp

theorem lookup_modify (runs : Registry τ) (id id' : ExplainabilityRunId)
    (f : RunGate τ → RunGate τ) :
    (runs.modify id f).lookup id' =
      if id' = id then (runs.lookup id').map f else runs.lookup id' := by
  unfold modify
  split
  · next h =>
    split
    · next heq => rw [heq, h, Option.map_none]
    · rfl
  · next gate h =>
    split
    · next heq => rw [heq, h, AList.lookup_insert, Option.map_some]
    · next hne => rw [AList.lookup_insert_ne hne]

theorem phase_modify (runs : Registry τ) (id : ExplainabilityRunId)
    {f : RunGate τ → RunGate τ} (hf : ∀ gate, (f gate).state = gate.state) :
    (runs.modify id f).phase = runs.phase := by
  funext id'
  rw [phase, phase, lookup_modify]
  by_cases hid : id' = id
  · rw [ite_cond_eq_true _ _ (eq_true hid)]
    cases runs.lookup id' with
    | none => rfl
    | some gate => exact congrArg GateState.phase (hf gate)
  · rw [ite_cond_eq_false _ _ (eq_false hid)]

@[simp]
theorem phase_acquire (runs : Registry τ) (id : ExplainabilityRunId) (t : τ) :
    (runs.acquire id t).phase = runs.phase :=
  phase_modify runs id fun _ => rfl

@[simp]
theorem phase_release (runs : Registry τ) (id : ExplainabilityRunId) :
    (runs.release id).phase = runs.phase :=
  phase_modify runs id fun _ => rfl

theorem phase_complete (found : id ∈ runs) (state : GateState) :
    (runs.complete id state).phase = update runs.phase id state.phase := by
  obtain ⟨gate, hgate⟩ := Option.isSome_iff_exists.mp (AList.lookup_isSome.mpr found)
  funext id'
  rw [phase, complete, lookup_modify]
  by_cases hid : id' = id
  · rw [hid, update_self, ite_cond_eq_true _ _ (eq_true rfl), hgate]
    rfl
  · rw [update_of_ne hid, ite_cond_eq_false _ _ (eq_false hid), phase]

@[simp]
theorem phase_insert_new (runs : Registry τ) (id : ExplainabilityRunId) :
    phase (runs.insert id RunGate.new) = update runs.phase id .open := by
  funext id'
  by_cases hid : id' = id
  · rw [hid, update_self, phase, AList.lookup_insert]
    rfl
  · rw [update_of_ne hid, phase, AList.lookup_insert_ne hid, phase]

theorem holder_acquire (found : id ∈ runs) (t : τ) :
    (runs.acquire id t).holder = update runs.holder id (some t) := by
  obtain ⟨gate, hgate⟩ := Option.isSome_iff_exists.mp (AList.lookup_isSome.mpr found)
  funext id'
  rw [holder, acquire, lookup_modify]
  by_cases hid : id' = id
  · rw [hid, update_self, ite_cond_eq_true _ _ (eq_true rfl), hgate]
    rfl
  · rw [update_of_ne hid, ite_cond_eq_false _ _ (eq_false hid), holder]

theorem holder_release (runs : Registry τ) (id : ExplainabilityRunId) :
    (runs.release id).holder = update runs.holder id none := by
  funext id'
  rw [holder, release, lookup_modify]
  by_cases hid : id' = id
  · rw [hid, update_self, ite_cond_eq_true _ _ (eq_true rfl)]
    cases runs.lookup id <;> rfl
  · rw [update_of_ne hid, ite_cond_eq_false _ _ (eq_false hid), holder]

@[simp]
theorem holder_complete (runs : Registry τ) (id : ExplainabilityRunId) (state : GateState) :
    (runs.complete id state).holder = runs.holder := by
  funext id'
  rw [holder, complete, lookup_modify, holder]
  split
  · cases runs.lookup id' <;> rfl
  · rfl

theorem holder_insert_new (new : id ∉ runs) :
    holder (runs.insert id RunGate.new) = runs.holder := by
  funext id'
  by_cases hid : id' = id
  · rw [hid, holder, AList.lookup_insert, holder, AList.lookup_eq_none.mpr new]
    rfl
  · rw [holder, AList.lookup_insert_ne hid, holder]

theorem mem_of_holder {t : τ} (held : runs.holder id = some t) : id ∈ runs := by
  rw [holder] at held
  rw [← AList.lookup_isSome]
  obtain ⟨gate, hgate, -⟩ := Option.bind_eq_some_iff.mp held
  rw [hgate, Option.isSome_some]

theorem mem_of_lookup (found : runs.lookup id = some gate) : id ∈ runs := by
  rw [← AList.lookup_isSome, found, Option.isSome_some]

end Registry

/-! ### What a step may do to the gates -/

/-- A step of a task `some t`, or of the writer `none`, on the gates: it respects the permits of the
other tasks, takes an active gate only out of its own hands, and never reopens a gate. -/
structure RegistryStep (who : Option τ) (runs runs' : Registry τ) : Prop where
  holder : ∀ id t, runs.holder id = some t → who ≠ some t → runs'.holder id = some t
  active : ∀ id, runs.phase id = .open →
    runs'.phase id = .open ∨ ∃ t, who = some t ∧ runs.holder id = some t
  marked : ∀ id, runs.phase id ≠ .open → runs.phase id ≠ .absent →
    runs'.phase id ≠ .open ∧ runs'.phase id ≠ .absent
  closed : ∀ id, runs.phase id = .closed → runs'.phase id = .closed
  absent : who ≠ none → ∀ id, runs.phase id = .absent → runs'.phase id = .absent

namespace RegistryStep

variable {runs runs' : Registry τ} {who : Option τ} {id : ExplainabilityRunId} {t : τ}

theorem refl (who : Option τ) (runs : Registry τ) : RegistryStep who runs runs :=
  ⟨fun _ _ h _ => h, fun _ h => Or.inl h, fun _ h h' => ⟨h, h'⟩, fun _ h => h, fun _ _ h => h⟩

/-- A task changes the gate it holds, or takes a free one. -/
theorem ofTask (id : ExplainabilityRunId)
    (holders : ∀ id', id' ≠ id → runs'.holder id' = runs.holder id')
    (phases : ∀ id', id' ≠ id → runs'.phase id' = runs.phase id')
    (own : (runs.holder id = none ∧ runs'.phase id = runs.phase id) ∨
      (runs.holder id = some t ∧ (runs.phase id ≠ .open → runs'.phase id = runs.phase id))) :
    RegistryStep (some t) runs runs' := by
  have kept : ∀ id', runs.phase id' ≠ .open → runs'.phase id' = runs.phase id' := by
    intro id' hne
    by_cases hid : id' = id
    · rw [hid] at hne ⊢
      rcases own with ⟨-, h⟩ | ⟨-, h⟩
      · exact h
      · exact h hne
    · exact phases id' hid
  refine ⟨?_, ?_, ?_, ?_, ?_⟩
  · intro id' t' held hne
    have hid : id' ≠ id := by
      rintro rfl
      rcases own with ⟨h, -⟩ | ⟨h, -⟩
      · rw [h] at held
        cases held
      · exact hne (h.symm.trans held)
    rw [holders id' hid]
    exact held
  · intro id' hopen
    by_cases hid : id' = id
    · rw [hid] at hopen ⊢
      rcases own with ⟨-, h⟩ | ⟨h, -⟩
      · exact Or.inl (h.trans hopen)
      · exact Or.inr ⟨t, rfl, h⟩
    · exact Or.inl ((phases id' hid).trans hopen)
  · intro id' hopen habsent
    rw [kept id' hopen]
    exact ⟨hopen, habsent⟩
  · intro id' hclosed
    rw [kept id' (by rw [hclosed]; decide)]
    exact hclosed
  · intro _ id' habsent
    rw [kept id' (by rw [habsent]; decide)]
    exact habsent

theorem acquire (found : id ∈ runs) (free : runs.holder id = none) :
    RegistryStep (some t) runs (runs.acquire id t) := by
  refine ofTask id (fun id' hid => ?_) (fun id' _ => ?_) (Or.inl ⟨free, ?_⟩)
  · rw [holder_acquire found, update_of_ne hid]
  · rw [phase_acquire]
  · rw [phase_acquire]

theorem release (held : runs.holder id = some t) :
    RegistryStep (some t) runs (runs.release id) := by
  refine ofTask id (fun id' hid => ?_) (fun id' _ => ?_) (Or.inr ⟨held, fun _ => ?_⟩)
  · rw [holder_release, update_of_ne hid]
  · rw [phase_release]
  · rw [phase_release]

/-- A task takes the active gate it holds out of that state. -/
theorem leave (held : runs.holder id = some t) (active : runs.phase id = .open)
    (state : GateState) : RegistryStep (some t) runs (runs.complete id state) := by
  have found := mem_of_holder held
  refine ofTask id (fun id' _ => ?_) (fun id' hid => ?_) (Or.inr ⟨held, fun h => ?_⟩)
  · rw [holder_complete]
  · rw [phase_complete found, update_of_ne hid]
  · exact absurd active h

/-- A task takes the active gate it holds out of that state, and gives its permit back. -/
theorem leaveRelease (held : runs.holder id = some t) (active : runs.phase id = .open)
    (state : GateState) : RegistryStep (some t) runs ((runs.complete id state).release id) := by
  have found := mem_of_holder held
  refine ofTask id (fun id' hid => ?_) (fun id' hid => ?_) (Or.inr ⟨held, fun h => ?_⟩)
  · rw [holder_release, update_of_ne hid, holder_complete]
  · rw [phase_release, phase_complete found, update_of_ne hid]
  · exact absurd active h

/-- The writer settles a finishing gate. -/
theorem settle (finishing : runs.phase id = .closing) {state : GateState}
    (settled : state ≠ .active) : RegistryStep none runs (runs.complete id state) := by
  have found : id ∈ runs := by
    by_contra h
    rw [phase_eq_absent_iff.mpr h] at finishing
    cases finishing
  have hphase := phase_complete found state
  refine ⟨?_, ?_, ?_, ?_, fun h => absurd rfl h⟩
  · intro id' t' held _
    rw [holder_complete]
    exact held
  · intro id' hopen
    have hid : id' ≠ id := by
      rintro rfl
      rw [finishing] at hopen
      cases hopen
    rw [hphase, update_of_ne hid]
    exact Or.inl hopen
  · intro id' hopen habsent
    rw [hphase]
    by_cases hid : id' = id
    · rw [hid, update_self]
      exact ⟨fun h => settled (GateState.phase_eq_open_iff.mp h), state.phase_ne_absent⟩
    · rw [update_of_ne hid]
      exact ⟨hopen, habsent⟩
  · intro id' hclosed
    have hid : id' ≠ id := by
      rintro rfl
      rw [finishing] at hclosed
      cases hclosed
    rw [hphase, update_of_ne hid]
    exact hclosed

/-- The writer registers a run. -/
theorem insert (new : runs.phase id = .absent) :
    RegistryStep none runs (runs.insert id .new) := by
  have hne : ∀ {id' : ExplainabilityRunId}, runs.phase id' ≠ .absent → id' ≠ id := by
    rintro id' h rfl
    exact h new
  refine ⟨?_, ?_, ?_, ?_, fun h => absurd rfl h⟩
  · intro id' t' held _
    rw [holder_insert_new (phase_eq_absent_iff.mp new)]
    exact held
  · intro id' hopen
    rw [phase_insert_new, update_of_ne (hne (by rw [hopen]; decide))]
    exact Or.inl hopen
  · intro id' hopen habsent
    rw [phase_insert_new, update_of_ne (hne habsent)]
    exact ⟨hopen, habsent⟩
  · intro id' hclosed
    rw [phase_insert_new, update_of_ne (hne (by rw [hclosed]; decide))]
    exact hclosed

end RegistryStep

/-! ### Where a task stands -/

/-- The run whose gate a task found active and still holds. -/
def TaskState.activeRun : TaskState ε → Option ExplainabilityRunId
  | .emitReserve r | .emitSend r => some r.runId
  | .finishAdmission id | .finishCheckWriter id | .finishReserve id | .finishMark id => some id
  | _ => none

theorem TaskState.heldRun_of_activeRun {state : TaskState ε} {id : ExplainabilityRunId}
    (h : state.activeRun = some id) : state.heldRun = some id := by
  cases state <;> first | exact h | cases h

/-- What the gates are like for a task that stands at `state`. -/
structure TaskOk (runs : Registry τ) (t : τ) (state : TaskState ε) : Prop where
  held : ∀ id, state.heldRun = some id → runs.holder id = some t
  active : ∀ id, state.activeRun = some id → runs.phase id = .open
  marked : ∀ id, state = .finishSend id → runs.phase id ≠ .open ∧ runs.phase id ≠ .absent
  finished : ∀ id, state = .returnedSink (.finishRun id) (.ok ()) → runs.phase id = .closed

namespace TaskOk

variable {runs runs' : Registry τ} {t : τ} {state : TaskState ε}

/-- A task that holds no run and did not finish one stands anywhere. -/
theorem free (held : state.heldRun = none)
    (finished : ∀ id, state ≠ .returnedSink (.finishRun id) (.ok ())) : TaskOk runs t state := by
  refine ⟨fun id h => ?_, fun id h => ?_, fun id h => ?_, fun id h => absurd h (finished id)⟩
  · rw [held] at h
    cases h
  · rw [TaskState.heldRun_of_activeRun h] at held
    cases held
  · rw [h] at held
    cases held

/-- A task that holds a run whose gate it has not looked at yet, or no longer relies on. -/
theorem holding (id : ExplainabilityRunId) (held : runs.holder id = some t)
    (heldRun : state.heldRun = some id) (activeRun : state.activeRun = none)
    (marked : ∀ id, state ≠ .finishSend id) : TaskOk runs t state := by
  refine ⟨fun id' h => ?_, fun id' h => ?_, fun id' h => absurd h (marked id'), fun id' h => ?_⟩
  · rw [heldRun] at h
    rwa [← Option.some.inj h]
  · rw [activeRun] at h
    cases h
  · rw [h] at heldRun
    cases heldRun

/-- A task that holds an active gate. -/
theorem holdingActive (id : ExplainabilityRunId) (held : runs.holder id = some t)
    (active : runs.phase id = .open) (activeRun : state.activeRun = some id) :
    TaskOk runs t state := by
  have heldRun := TaskState.heldRun_of_activeRun activeRun
  refine ⟨fun id' h => ?_, fun id' h => ?_, fun id' h => ?_, fun id' h => ?_⟩
  · rw [heldRun] at h
    rwa [← Option.some.inj h]
  · rw [activeRun] at h
    rwa [← Option.some.inj h]
  · rw [h] at activeRun
    cases activeRun
  · rw [h] at activeRun
    cases activeRun

/-- A task whose `finish_run` returned `Ok`. -/
theorem finishedRun {id : ExplainabilityRunId} {result : SinkResult}
    (finished : result = .ok () → runs.phase id = .closed) :
    TaskOk (ε := ε) runs t (.returnedSink (.finishRun id) result) := by
  refine ⟨fun _ h => ?_, fun _ h => ?_, fun _ h => ?_, fun id' h => ?_⟩
  · cases h
  · cases h
  · cases h
  rw [TaskState.returnedSink.injEq, RecorderCall.finishRun.injEq] at h
  rw [← h.1]
  exact finished h.2

/-- Steps of others leave a task where it stands. -/
theorem frame {who : Option τ} (h : TaskOk runs t state) (hstep : RegistryStep who runs runs')
    (other : who ≠ some t) : TaskOk runs' t state := by
  refine ⟨fun id hheld => hstep.holder id t (h.held id hheld) other, fun id hactive => ?_,
    fun id hmarked => hstep.marked id (h.marked id hmarked).1 (h.marked id hmarked).2,
    fun id hfinished => hstep.closed id (h.finished id hfinished)⟩
  rcases hstep.active id (h.active id hactive) with hopen | ⟨t', rfl, hheld⟩
  · exact hopen
  · -- only the holder may take the gate out of the active state, and that is this task
    rw [h.held id (TaskState.heldRun_of_activeRun hactive)] at hheld
    exact absurd hheld.symm other

/-- The state that a task was given is where it stands. -/
theorem updated [DecidableEq τ] {tasks : τ → TaskState ε} (h : TaskOk runs t state) :
    TaskOk runs t (update tasks t state t) := by
  rwa [update_self]

end TaskOk

/-- What the gates are like for a writer that stands at `writer`. -/
def WriterState.Ok (runs : Registry τ) : WriterState ε τ → Prop
  | .registering run _ | .inserting run _ => runs.phase run.runId = .absent
  | .closing id _ | .answering _ (.finishRun id (.ok ())) => runs.phase id = .closed
  | _ => True

variable {writer : WriterState ε τ}

/-- Steps of tasks leave the writer where it stands. -/
theorem WriterState.Ok.frame {runs runs' : Registry τ} {t : τ}
    (h : writer.Ok runs) (hstep : RegistryStep (some t) runs runs') : writer.Ok runs' := by
  unfold WriterState.Ok at h ⊢
  split at h
  · exact hstep.absent (Option.some_ne_none t) _ h
  · exact hstep.absent (Option.some_ne_none t) _ h
  · exact hstep.closed _ h
  · exact hstep.closed _ h
  · trivial

/-! ### The recorder as a mailbox -/

/-- The mailbox entry a command stands for. -/
def StoreWriterCommand.entry :
    StoreWriterCommand ε τ → Option (Mailbox.Entry ExplainabilityRunId (ExplainabilityRecord ε))
  | .record r => some (.item r.runId r)
  | .finishRun id _ => some (.close id)
  | .control _ _ | .shutdown _ => none

/-- The command the writer has taken and not settled yet. -/
def WriterState.inHand : WriterState ε τ → Option (StoreWriterCommand ε τ)
  | .handling command => some command
  | _ => none

/-- Whether the writer still takes commands. -/
def WriterState.isAlive : WriterState ε τ → Bool
  | .returning _ | .guarding _ | .failingGates _ _ | .closingRuns _ _ | .ended _ => false
  | _ => true

namespace RecorderState

/-- The records and closing marks that the writer has not settled yet. -/
def pending (s : RecorderState ε τ) :
    List (Mailbox.Entry ExplainabilityRunId (ExplainabilityRecord ε)) :=
  (s.writer.inHand.toList ++ s.queue).filterMap StoreWriterCommand.entry

/-- The accepted records of a run, in the order of the queue. -/
def acceptedOf (s : RecorderState ε τ) (id : ExplainabilityRunId) : List (ExplainabilityRecord ε) :=
  s.accepted.filter fun r => r.runId = id

/-- The persisted records of a run. -/
def persistedOf (s : RecorderState ε τ) (id : ExplainabilityRunId) :
    List (ExplainabilityRecord ε) :=
  (s.store.eventsOf id).map (·.record)

/-- The mailbox a recorder is. -/
def mailbox (s : RecorderState ε τ) :
    Mailbox.State ExplainabilityRunId (ExplainabilityRecord ε) where
  phase := s.runs.phase
  pending := s.pending
  accepted := s.acceptedOf
  consumed := s.persistedOf
  alive := s.writer.isAlive = true

/-- The unsettled entries after a command is queued. -/
theorem pending_queue (s : RecorderState ε τ) (command : StoreWriterCommand ε τ) :
    (s.writer.inHand.toList ++ (s.queue ++ [command])).filterMap StoreWriterCommand.entry =
      s.pending ++ command.entry.toList := by
  rw [← List.append_assoc, List.filterMap_append, pending]
  cases h : command.entry <;> simp [h]

/-- The accepted records of each run after one more is accepted. -/
theorem acceptedOf_append (s : RecorderState ε τ) (r : ExplainabilityRecord ε) :
    (fun id => (s.accepted ++ [r]).filter fun r => r.runId = id) =
      update s.acceptedOf r.runId (s.acceptedOf r.runId ++ [r]) := by
  funext id
  rw [List.filter_append]
  by_cases hid : id = r.runId
  · rw [hid, update_self]
    simp [acceptedOf]
  · rw [update_of_ne hid]
    simp [acceptedOf, Ne.symm hid]

/-- Nothing is pending but the queue when the writer has no entry in hand. -/
theorem pending_of_settled {s : RecorderState ε τ}
    (h : s.writer.inHand.bind StoreWriterCommand.entry = none) :
    s.pending = s.queue.filterMap StoreWriterCommand.entry := by
  unfold pending
  cases hhand : s.writer.inHand with
  | none => rfl
  | some command =>
    rw [hhand, Option.bind_some] at h
    rw [Option.toList_some, List.singleton_append, List.filterMap_cons_none h]

/-- The entry in hand comes before the queue. -/
theorem pending_of_inHand {s : RecorderState ε τ}
    (entry : Mailbox.Entry ExplainabilityRunId (ExplainabilityRecord ε))
    (h : s.writer.inHand.bind StoreWriterCommand.entry = some entry) :
    s.pending = entry :: s.queue.filterMap StoreWriterCommand.entry := by
  unfold pending
  obtain ⟨command, hhand, hentry⟩ := Option.bind_eq_some_iff.mp h
  rw [hhand, Option.toList_some, List.singleton_append, List.filterMap_cons_some hentry]

/-- A recorder whose parts are those of a mailbox after a step has made that step. -/
theorem step_mailbox {s s' : RecorderState ε τ}
    {m : Mailbox.State ExplainabilityRunId (ExplainabilityRecord ε)}
    (h : Mailbox.Step s.mailbox () m) (hphase : s'.runs.phase = m.phase)
    (hpending : s'.pending = m.pending) (haccepted : s'.acceptedOf = m.accepted)
    (hpersisted : s'.persistedOf = m.consumed) (halive : (s'.writer.isAlive = true) = m.alive) :
    Mailbox.Step s.mailbox () s'.mailbox := by
  have heq : s'.mailbox = m := by
    unfold mailbox
    rw [hphase, hpending, haccepted, hpersisted, halive]
  rwa [heq]

/-- What holds of a recorder at every moment. -/
structure Valid (s : RecorderState ε τ) : Prop where
  tasks : ∀ t, TaskOk s.runs t (s.tasks t)
  responses : ∀ t id, s.responses t = some (.finishRun id (.ok ())) → s.runs.phase id = .closed
  writer : s.writer.Ok s.runs
  finished : ∀ id ∈ s.finishedRuns, s.runs.phase id = .closed
  store : s.store.Contract

theorem valid_new : (new : RecorderState ε τ).Valid where
  tasks _ := TaskOk.free rfl fun _ h => by cases h
  responses _ _ h := by cases h
  writer := trivial
  finished _ h := absurd h (Finset.notMem_empty _)
  store := MemoryState.contract_new

end RecorderState

/-! ### What a step of a task does -/

variable {status : WriterStatus} {responses : τ → Option Response}

section Tasks

variable [DecidableEq τ] {capacity : ℕ} {s s' : RecorderState ε τ} {t : τ}

/-- What a step of task `t` does: it moves `t`, changes the gates within its permits, and is a step
of the mailbox or invisible in it. -/
structure TaskEffect (s s' : RecorderState ε τ) (t : τ) : Prop where
  others : ∀ t', t' ≠ t → s'.tasks t' = s.tasks t'
  own : TaskOk s'.runs t (s'.tasks t)
  runs : RegistryStep (some t) s.runs s'.runs
  responses : ∀ t' r, s'.responses t' = some r → s.responses t' = some r
  writer : s'.writer = s.writer
  finishedRuns : s'.finishedRuns = s.finishedRuns
  store : s'.store = s.store
  mailbox : s.mailbox = s'.mailbox ∨ Mailbox.Step s.mailbox () s'.mailbox

variable {admission : Option τ} {reserved : ℕ}

namespace TaskEffect

/-- A step of a task preserves the invariant. -/
theorem valid (h : TaskEffect s s' t) (hs : s.Valid) : s'.Valid where
  tasks t' := by
    by_cases ht : t' = t
    · rw [ht]
      exact h.own
    · rw [h.others t' ht]
      exact (hs.tasks t').frame h.runs fun heq => ht (Option.some.inj heq).symm
  responses t' id hr := h.runs.closed id (hs.responses t' id (h.responses t' _ hr))
  writer := by
    rw [h.writer]
    exact hs.writer.frame h.runs
  finished id hid := by
    rw [h.finishedRuns] at hid
    exact h.runs.closed id (hs.finished id hid)
  store := by
    rw [h.store]
    exact hs.store

/-- A step that only changes the gates, not their phases, and not the queue. -/
theorem ofRuns {state : TaskState ε} {runs' : Registry τ}
    (hruns : RegistryStep (some t) s.runs runs') (hphase : runs'.phase = s.runs.phase)
    (hresponses : ∀ t' r, responses t' = some r → s.responses t' = some r)
    (own : TaskOk runs' t state) :
    TaskEffect s
      { s with
        tasks := update s.tasks t state
        runs := runs'
        admission := admission
        reserved := reserved
        writerStatus := status
        responses := responses } t where
  others t' ht := update_of_ne ht _ _
  own := own.updated
  runs := hruns
  responses := hresponses
  writer := rfl
  finishedRuns := rfl
  store := rfl
  mailbox := by
    refine Or.inl ?_
    unfold RecorderState.mailbox
    rw [hphase]
    rfl

/-- A step that changes neither the gates nor the queue. -/
theorem moves {state : TaskState ε} (own : TaskOk s.runs t state) : TaskEffect s { s with
        tasks := update s.tasks t state
        admission := admission
        reserved := reserved
        writerStatus := status } t :=
  ofRuns (.refl _ _) rfl (fun _ _ h => h) own

/-- A step that gives back the run's permit, and changes nothing else about the gates. -/
theorem releases {state : TaskState ε} {id : ExplainabilityRunId} (held : s.runs.holder id = some t)
    (own : TaskOk (s.runs.release id) t state) :
    TaskEffect s
      { s with
        tasks := update s.tasks t state
        runs := s.runs.release id
        admission := admission
        reserved := reserved
        writerStatus := status } t :=
  ofRuns (.release held) (phase_release _ _) (fun _ _ h => h) own

/-- A step that takes the answer meant for the task. -/
theorem answers {state : TaskState ε} (own : TaskOk s.runs t state) :
    TaskEffect s
      { s with tasks := update s.tasks t state, responses := update s.responses t none } t :=
  ofRuns (.refl _ _) rfl (fun t' r h => by
    by_cases ht : t' = t
    · rw [ht, update_self] at h
      cases h
    · rwa [update_of_ne ht] at h) own

end TaskEffect

/-- A step that queues a command that is no entry of the mailbox. -/
theorem TaskEffect.queues {state : TaskState ε}
    {command : StoreWriterCommand ε τ} (own : TaskOk s.runs t state)
    (noEntry : command.entry = none) :
    TaskEffect s
      { s with
        tasks := update s.tasks t state
        admission := admission
        reserved := reserved
        writerStatus := status
        queue := s.queue ++ [command] } t where
  others t' ht := update_of_ne ht _ _
  own := own.updated
  runs := .refl _ _
  responses _ _ h := h
  writer := rfl
  finishedRuns := rfl
  store := rfl
  mailbox := by
    refine Or.inl ?_
    unfold RecorderState.mailbox RecorderState.pending
    simp only [RecorderState.pending_queue, noEntry, Option.toList_none, List.append_nil]
    rfl

/-- A step in which the holder of an active gate fails it. -/
theorem TaskEffect.fails {state : TaskState ε} {id : ExplainabilityRunId}
    {error : ExplainabilitySinkError} (held : s.runs.holder id = some t)
    (active : s.runs.phase id = .open)
    (own : TaskOk ((s.runs.complete id (.ofError error)).release id) t state) :
    TaskEffect s
      { s with
        tasks := update s.tasks t state
        runs := (s.runs.complete id (.ofError error)).release id
        admission := admission } t where
  others t' ht := update_of_ne ht _ _
  own := own.updated
  runs := .leaveRelease held active _
  responses _ _ h := h
  writer := rfl
  finishedRuns := rfl
  store := rfl
  mailbox := by
    refine Or.inr (RecorderState.step_mailbox (.fails id (Or.inl active)) ?_ rfl rfl rfl rfl)
    show ((s.runs.complete id (.ofError error)).release id).phase = update s.runs.phase id .failed
    rw [phase_release, phase_complete (mem_of_holder held),
      GateState.phase_ofError]

/-- Every step inside `emit`. -/
theorem EmitStep.effect (hs : s.Valid) (h : EmitStep capacity s t s') : TaskEffect s s' t := by
  have hok : ∀ {state : TaskState ε}, s.tasks t = state → TaskOk s.runs t state :=
    fun at_ => at_ ▸ hs.tasks t
  cases h with
  | unknown | start => exact .moves (.free rfl (by simp))
  | acquireRun r gate at_ found free =>
    have hfound := mem_of_lookup found
    refine .ofRuns (.acquire hfound ?_) (phase_acquire _ _ _) (fun _ _ h => h)
      (.holding r.runId ?_ rfl rfl (by simp))
    · rw [holder_of_lookup found, free]
    · rw [holder_acquire hfound, update_self]
  | acquire r at_ free => exact .moves (.holding _ ((hok at_).held _ rfl) rfl rfl (by simp))
  | writerDown r at_ down => exact .releases ((hok at_).held _ rfl) (.free rfl (by simp))
  | writerUp r at_ up => exact .moves (.holding _ ((hok at_).held _ rfl) rfl rfl (by simp))
  | gateShut r gate at_ found shut =>
    exact .releases ((hok at_).held _ rfl) (.free rfl (by simp))
  | gateOpen r gate at_ found active =>
    refine .moves (.holdingActive r.runId ((hok at_).held _ rfl) ?_ rfl)
    rw [phase_of_lookup found, active]
    rfl
  | queueClosed r at_ closed => exact .releases ((hok at_).held _ rfl) (.free rfl (by simp))
  | reserve r at_ isOpen room =>
    exact .moves (.holdingActive _ ((hok at_).held _ rfl) ((hok at_).active _ rfl) rfl)
  | send r at_ =>
    refine ⟨fun t' ht => update_of_ne ht _ _, (TaskOk.free rfl (by simp)).updated,
      .release ((hok at_).held _ rfl), fun _ _ h => h, rfl, rfl, rfl, Or.inr ?_⟩
    -- the gate is still active, since this task holds it
    exact RecorderState.step_mailbox (.accepts r.runId r ((hok at_).active _ rfl))
      (phase_release _ _) (RecorderState.pending_queue s (.record r))
      (RecorderState.acceptedOf_append s r) rfl rfl

/-- Every step inside `finish_run`. -/
theorem FinishStep.effect (hs : s.Valid) (h : FinishStep capacity s t s') : TaskEffect s s' t := by
  have hok : ∀ {state : TaskState ε}, s.tasks t = state → TaskOk s.runs t state :=
    fun at_ => at_ ▸ hs.tasks t
  cases h with
  | unknown | start => exact .moves (.free rfl (by simp))
  | acquireRun id gate at_ found free =>
    have hfound := mem_of_lookup found
    refine .ofRuns (.acquire hfound ?_) (phase_acquire _ _ _) (fun _ _ h => h)
      (.holding id ?_ rfl rfl (by simp))
    · rw [holder_of_lookup found, free]
    · rw [holder_acquire hfound, update_self]
  | matchActive id gate at_ found active =>
    refine .moves (.holdingActive id ((hok at_).held _ rfl) ?_ rfl)
    rw [phase_of_lookup found, active]
    rfl
  | matchFinishing id gate at_ found finishing =>
    exact .releases ((hok at_).held _ rfl) (.free rfl (by simp))
  | matchFinished id gate at_ found finished =>
    refine .releases ((hok at_).held _ rfl) (.finishedRun fun _ => ?_)
    rw [phase_release, phase_of_lookup found, finished]
    rfl
  | matchFailed id gate at_ found failed =>
    exact .releases ((hok at_).held _ rfl) (.free rfl (by simp))
  | acquire id at_ free =>
    exact .moves (.holdingActive _ ((hok at_).held _ rfl) ((hok at_).active _ rfl) rfl)
  | writerDown id at_ down =>
    exact .fails ((hok at_).held _ rfl) ((hok at_).active _ rfl) (.free rfl (by simp))
  | writerUp id at_ up =>
    exact .moves (.holdingActive _ ((hok at_).held _ rfl) ((hok at_).active _ rfl) rfl)
  | queueClosed id at_ closed =>
    exact .fails ((hok at_).held _ rfl) ((hok at_).active _ rfl) (.free rfl (by simp))
  | reserve id at_ isOpen room =>
    exact .moves (.holdingActive _ ((hok at_).held _ rfl) ((hok at_).active _ rfl) rfl)
  | mark id at_ =>
    have hheld := (hok at_).held _ rfl
    have hactive := (hok at_).active _ rfl
    have hphase := phase_complete (mem_of_holder hheld) .finishing
    refine ⟨fun t' ht => update_of_ne ht _ _, ?_, .leave hheld hactive _,
      fun _ _ h => h, rfl, rfl, rfl, Or.inr ?_⟩
    · refine TaskOk.updated ⟨fun id' h => ?_, fun _ h => ?_, fun id' h => ?_, fun _ h => ?_⟩
      · rw [holder_complete]
        exact (hok at_).held id' h
      · cases h
      · rw [← TaskState.finishSend.inj h, hphase, update_self]
        exact ⟨by decide, by decide⟩
      · cases h
    · exact RecorderState.step_mailbox (.stopsAccepting id hactive) hphase rfl rfl rfl rfl
  | send id at_ =>
    obtain ⟨hopen, habsent⟩ := (hok at_).marked _ rfl
    refine ⟨fun t' ht => update_of_ne ht _ _, TaskOk.updated ?_, .refl _ _,
      fun _ _ h => h, rfl, rfl, rfl, Or.inr ?_⟩
    · exact .holding _ ((hok at_).held _ rfl) rfl rfl (by simp)
    exact RecorderState.step_mailbox (.queuesClose id hopen habsent) rfl
      (RecorderState.pending_queue s (.finishRun id t)) rfl rfl rfl
  | answered id result at_ answer =>
    have hfinished : result = .ok () → s.runs.phase id = .closed := by
      rintro rfl
      exact hs.responses t id answer
    refine .ofRuns (.release ((hok at_).held _ rfl)) (phase_release _ _)
      (fun t' r h => ?_) (.finishedRun ?_)
    · by_cases ht : t' = t
      · rw [ht, update_self] at h
        cases h
      · rwa [update_of_ne ht] at h
    · rwa [phase_release]
  | unanswered id gate at_ closed none_ found =>
    refine .releases ((hok at_).held _ rfl) (.finishedRun fun h => ?_)
    rw [phase_release, phase_of_lookup found, finishStateResult_eq_ok_iff.mp h]
    rfl
  | watched id gate at_ found changed =>
    refine .moves (.finishedRun fun h => ?_)
    rw [phase_of_lookup found, finishStateResult_eq_ok_iff.mp h]
    rfl

/-- Every step inside `create_run` and `complete_run`. -/
theorem ControlStep.effect (h : ControlStep capacity s t s') : TaskEffect s s' t := by
  cases h with
  | create | completeUnknown | completeUnfinished | complete | acquire | writerDown | writerUp
  | queueClosed | reserve | unanswered =>
    exact .moves (.free rfl (by simp))
  | send request at_ => exact .queues (.free rfl (by simp)) rfl
  | answered request result at_ answer => exact .answers (.free rfl (by simp))

/-- Every step inside `shutdown`. -/
theorem ShutdownStep.effect (h : ShutdownStep capacity s t s') : TaskEffect s s' t := by
  cases h with
  | start | acquire | writerDown | writerUp | queueClosed | reserve | swapFailed | unanswered
  | join =>
    exact .moves (.free rfl (by simp))
  | swap at_ up => exact .queues (.free rfl (by simp)) rfl
  | answered result at_ answer => exact .answers (.free rfl (by simp))

/-- Dropping a task where it waits. -/
theorem cancel_effect (hs : s.Valid) (t : τ) : TaskEffect s (s.cancel t) t := by
  unfold RecorderState.cancel
  cases hheld : (s.tasks t).heldRun with
  | none => exact .moves (.free rfl (by simp))
  | some id => exact .releases ((hs.tasks t).held id hheld) (.free rfl (by simp))

end Tasks

/-! ### What a step of the writer does -/

variable {envelope : ExplainabilityEnvelope ε}

section Answers

variable {m m' : MemoryState ε} {result : Except ExplainabilityStoreError Unit}

theorem Effect.eventsOf_createRun {run : ExplainabilityRun} {reply : StoreResult ε}
    (h : Effect m (.createRun run) reply m') : m'.eventsOf = m.eventsOf := by
  cases h <;> rfl

theorem Effect.eventsOf_completeRun {completion : RunCompletion} {reply : StoreResult ε}
    (h : Effect m (.completeRun completion) reply m') : m'.eventsOf = m.eventsOf := by
  cases h <;> rfl

/-- What an answered call did. -/
theorem StoreAnswer.effect {performed : Except ExplainabilityStoreError Unit × MemoryState ε}
    (h : StoreAnswer m performed result m') (call : StoreCall ε)
    (hcall : m.call call = performed.map (Except.map fun _ => .done) id) :
    Effect m call (result.map fun _ => .done) m' := by
  cases h with
  | failed error => exact .failed call error
  | performed =>
    have heffect := MemoryState.call_effect m call
    rwa [hcall] at heffect

/-- An answered `create_run` adds no event. -/
theorem StoreAnswer.createRun (hm : m.Contract) {run : ExplainabilityRun}
    (h : StoreAnswer m (m.createRun run) result m') :
    m'.Contract ∧ m'.eventsOf = m.eventsOf :=
  ⟨hm.effect (h.effect (.createRun run) rfl),
    (h.effect (.createRun run) rfl).eventsOf_createRun⟩

/-- An answered `complete_run` adds no event. -/
theorem StoreAnswer.completeRun (hm : m.Contract) {completion : RunCompletion}
    (h : StoreAnswer m (m.completeRun completion) result m') :
    m'.Contract ∧ m'.eventsOf = m.eventsOf :=
  ⟨hm.effect (h.effect (.completeRun completion) rfl),
    (h.effect (.completeRun completion) rfl).eventsOf_completeRun⟩

/-- An append that succeeds adds its envelope to its run and nothing else. -/
theorem StoreAnswer.appendEvents (hm : m.Contract)
    (h : StoreAnswer m (m.appendEvents [envelope]) result m') (ok : result = .ok ()) :
    m'.Contract ∧ m'.eventsOf =
      update m.eventsOf envelope.record.runId
        (m.eventsOf envelope.record.runId ++ [envelope]) := by
  have heffect := h.effect (.appendEvents [envelope]) rfl
  refine ⟨hm.effect heffect, ?_⟩
  rw [ok] at heffect
  generalize hbatch : [envelope] = batch at heffect
  cases heffect with
  | emptyBatch => cases hbatch
  | appended id run _ stored open_ owned sequences bounded =>
    subst hbatch
    obtain rfl := owned envelope (List.mem_singleton_self envelope)
    funext id
    rw [MemoryState.eventsOf_insert]
    by_cases hid : id = envelope.record.runId
    · rw [hid, update_self, ite_cond_eq_true _ _ (eq_true rfl)]
    · rw [update_of_ne hid, ite_cond_eq_false _ _ (eq_false hid)]

/-- An append that fails adds nothing. -/
theorem StoreAnswer.appendEvents_failed
    (h : StoreAnswer m (m.appendEvents [envelope]) result m') {e : ExplainabilityStoreError}
    (failed : result = .error e) : m' = m := by
  have heffect := h.effect (.appendEvents [envelope]) rfl
  rw [failed] at heffect
  cases heffect
  rfl

end Answers

/-- `persist_record` appends the record it was given. -/
theorem nextEnvelope_record {s : RecorderState ε τ} {r : ExplainabilityRecord ε}
    (h : s.nextEnvelope r = .ok envelope) :
    envelope.record = r := by
  unfold RecorderState.nextEnvelope at h
  split at h
  · cases h
  · split at h
    · cases h
    · split at h
      · cases h
      · unfold ExplainabilityEnvelope.new at h
        split at h
        · rw [Except.mapError, Except.ok.injEq] at h
          rw [← h]
        · cases h

section Writer

variable {s s' : RecorderState ε τ}

/-- What a step of the writer does: it leaves the tasks, settles gates only, and is a step of the
mailbox or invisible in it. -/
structure WriterEffect (s s' : RecorderState ε τ) : Prop where
  tasks : s'.tasks = s.tasks
  runs : RegistryStep none s.runs s'.runs
  writer : s'.writer.Ok s'.runs
  responses : ∀ t id, s'.responses t = some (.finishRun id (.ok ())) →
    s.responses t = some (.finishRun id (.ok ())) ∨
      s.writer = .answering t (.finishRun id (.ok ()))
  finishedRuns : ∀ id ∈ s'.finishedRuns, id ∈ s.finishedRuns ∨ s'.runs.phase id = .closed
  store : s'.store.Contract
  mailbox : s.mailbox = s'.mailbox ∨ Mailbox.Step s.mailbox () s'.mailbox

namespace WriterEffect

/-- A step of the writer preserves the invariant. -/
theorem valid (h : WriterEffect s s') (hs : s.Valid) : s'.Valid where
  tasks t := by
    rw [h.tasks]
    exact (hs.tasks t).frame h.runs (Option.some_ne_none t).symm
  responses t id hr := by
    rcases h.responses t id hr with hr | hw
    · exact h.runs.closed id (hs.responses t id hr)
    · have hok := hs.writer
      rw [hw] at hok
      exact h.runs.closed id hok
  writer := h.writer
  finished id hid := by
    rcases h.finishedRuns id hid with hid | hid
    · exact h.runs.closed id (hs.finished id hid)
    · exact hid
  store := h.store

/-- A step between commands, or inside one that is no entry of the mailbox. -/
theorem works {store : MemoryState ε} (alive : s.writer.isAlive = writer.isAlive)
    (settled : s.writer.inHand.bind StoreWriterCommand.entry = none)
    (settled' : writer.inHand.bind StoreWriterCommand.entry = none) (ok : writer.Ok s.runs)
    (hresponses : ∀ t id, responses t = some (.finishRun id (.ok ())) →
      s.responses t = some (.finishRun id (.ok ())) ∨
        s.writer = .answering t (.finishRun id (.ok ())))
    (hstore : store.Contract ∧ store.eventsOf = s.store.eventsOf) :
    WriterEffect s
      { s with
        writer := writer
        writerStatus := status
        responses := responses
        store := store } where
  tasks := rfl
  runs := .refl _ _
  writer := ok
  responses := hresponses
  finishedRuns _ h := Or.inl h
  store := hstore.1
  mailbox := by
    refine Or.inl ?_
    unfold RecorderState.mailbox RecorderState.persistedOf
    rw [RecorderState.pending_of_settled settled]
    simp only [alive, hstore.2]
    rw [RecorderState.pending_of_settled settled']
    rfl

/-- A step of the writer after it stopped taking commands, or with which it stops. -/
theorem stops {queue : List (StoreWriterCommand ε τ)} {queueOpen : Bool} {store : MemoryState ε}
    (dead : writer.isAlive = false) (ok : writer.Ok s.runs)
    (hresponses : ∀ t id, responses t = some (.finishRun id (.ok ())) →
      s.responses t = some (.finishRun id (.ok ())) ∨
        s.writer = .answering t (.finishRun id (.ok ())))
    (hstore : store.Contract ∧ store.eventsOf = s.store.eventsOf) :
    WriterEffect s
      { s with
        writer := writer
        writerStatus := status
        responses := responses
        queue := queue
        queueOpen := queueOpen
        store := store } where
  tasks := rfl
  runs := .refl _ _
  writer := ok
  responses := hresponses
  finishedRuns _ h := Or.inl h
  store := hstore.1
  mailbox := by
    refine Or.inr ?_
    have hstep := Mailbox.Step.stops (s := s.mailbox)
      ((writer.inHand.toList ++ queue).filterMap StoreWriterCommand.entry)
    unfold RecorderState.mailbox RecorderState.persistedOf at hstep ⊢
    simp only [dead, hstore.2, Bool.false_eq_true]
    exact hstep

end WriterEffect

end Writer

/-- Every step of the writer. -/
theorem WriterStep.effect [DecidableEq τ] {s s' : RecorderState ε τ} {action : RecorderAction ε}
    (hs : s.Valid) (h : WriterStep s action s') : WriterEffect s s' := by
  have hok : ∀ {writer : WriterState ε τ}, s.writer = writer → writer.Ok s.runs :=
    fun at_ => at_ ▸ hs.writer
  have hkept : s.store.Contract ∧ s.store.eventsOf = s.store.eventsOf := ⟨hs.store, rfl⟩
  have halive : s.writer.isAlive = true → (true = true) = s.mailbox.alive := fun h => by
    show _ = (s.writer.isAlive = true)
    rw [h]
  cases h with
  | receive command rest at_ first =>
    refine ⟨rfl, .refl _ _, trivial, fun _ _ h => Or.inl h, fun _ h => Or.inl h, hs.store,
      Or.inl ?_⟩
    unfold RecorderState.mailbox RecorderState.pending
    rw [at_, first]
    rfl
  | lost at_ empty => exact .stops rfl trivial (fun _ _ h => Or.inl h) hkept
  | createRegistered run t at_ registered =>
    exact .works (by rw [at_]; rfl) (by rw [at_]; rfl) rfl trivial (fun _ _ h => Or.inl h) hkept
  | createFailed run t error store at_ new answer =>
    exact .works (by rw [at_]; rfl) (by rw [at_]; rfl) rfl trivial (fun _ _ h => Or.inl h)
      (answer.createRun hs.store)
  | create run t store at_ new answer =>
    exact .works (by rw [at_]; rfl) (by rw [at_]; rfl) rfl (phase_eq_absent_iff.mpr new)
      (fun _ _ h => Or.inl h) (answer.createRun hs.store)
  | register run t at_ =>
    have habsent : s.runs.phase run.runId = .absent := hok at_
    exact .works (by rw [at_]; rfl) (by rw [at_]; rfl) rfl habsent (fun _ _ h => Or.inl h) hkept
  | insert run t at_ =>
    have habsent : s.runs.phase run.runId = .absent := hok at_
    refine ⟨rfl, .insert habsent, trivial, fun _ _ h => Or.inl h, fun _ h => Or.inl h, hs.store,
      Or.inr ?_⟩
    refine RecorderState.step_mailbox (.opens run.runId habsent) (phase_insert_new _ _)
      ?_ rfl rfl (halive (by rw [at_]; rfl))
    exact (RecorderState.pending_of_settled (s := s) (by rw [at_]; rfl)).symm
  | persistRejected r error at_ rejected =>
    exact .stops rfl trivial (fun _ _ h => Or.inl h) hkept
  | persistFailed r envelope error store at_ next answer =>
    rw [answer.appendEvents_failed rfl]
    exact .stops rfl trivial (fun _ _ h => Or.inl h) hkept
  | persist r envelope store at_ next answer =>
    obtain ⟨hcontract, hevents⟩ := answer.appendEvents hs.store rfl
    have hrecord := nextEnvelope_record next
    have htaking : s.writer.isAlive = true := by rw [at_]; rfl
    have hpending := RecorderState.pending_of_inHand (s := s) (.item r.runId r)
      (by rw [at_]; rfl)
    refine ⟨rfl, .refl _ _, trivial, fun _ _ h => Or.inl h, fun _ h => Or.inl h, hcontract,
      Or.inr ?_⟩
    have hpersisted : (fun id => (store.eventsOf id).map (·.record)) =
        update s.persistedOf r.runId (s.persistedOf r.runId ++ [r]) := by
      funext id
      rw [hevents, hrecord]
      by_cases hid : id = r.runId
      · rw [hid, update_self, update_self, List.map_append]
        simp [RecorderState.persistedOf, hrecord]
      · rw [update_of_ne hid, update_of_ne hid, RecorderState.persistedOf]
    exact RecorderState.step_mailbox (.consumes r.runId r _ htaking hpending) rfl rfl rfl hpersisted
      (halive (by rw [at_]; rfl))
  | publish envelope at_ =>
    exact .works (by rw [at_]; rfl) (by rw [at_]; rfl) rfl trivial (fun _ _ h => Or.inl h) hkept
  | send envelope at_ =>
    exact .works (by rw [at_]; rfl) (by rw [at_]; rfl) rfl trivial (fun _ _ h => Or.inl h) hkept
  | finishVoid id t gate at_ found void =>
    have htaking : s.writer.isAlive = true := by rw [at_]; rfl
    have hpending := RecorderState.pending_of_inHand (s := s) (.close id)
      (by rw [at_]; rfl)
    refine ⟨rfl, .refl _ _, trivial, fun _ _ h => Or.inl h, fun _ h => Or.inl h, hs.store,
      Or.inr ?_⟩
    exact RecorderState.step_mailbox (.skips id _ htaking hpending) rfl rfl rfl rfl
      (halive (by rw [at_]; rfl))
  | finish id t gate at_ found finishing =>
    have htaking : s.writer.isAlive = true := by rw [at_]; rfl
    have hclosing : s.runs.phase id = .closing := by
      rw [phase_of_lookup found, finishing]
      rfl
    have hphase := phase_complete (mem_of_lookup found) .finished
    have hpending := RecorderState.pending_of_inHand (s := s) (.close id)
      (by rw [at_]; rfl)
    have hclosed : (s.runs.complete id .finished).phase id = .closed := by
      rw [hphase, update_self]
      rfl
    refine ⟨rfl, .settle hclosing (by decide), hclosed, fun _ _ h => Or.inl h, fun id' h => ?_,
      hs.store, Or.inr ?_⟩
    · rcases Finset.mem_insert.mp h with rfl | h
      · exact Or.inr hclosed
      · exact Or.inl h
    · exact RecorderState.step_mailbox (.closes id _ htaking hpending hclosing) hphase
        rfl rfl rfl (halive (by rw [at_]; rfl))
  | close id t at_ =>
    have hclosed : s.runs.phase id = .closed := hok at_
    exact .works (by rw [at_]; rfl) (by rw [at_]; rfl) rfl hclosed (fun _ _ h => Or.inl h) hkept
  | completeUnfinished completion t at_ unfinished =>
    exact .works (by rw [at_]; rfl) (by rw [at_]; rfl) rfl trivial (fun _ _ h => Or.inl h) hkept
  | complete completion t result store at_ finished answer =>
    exact .works (by rw [at_]; rfl) (by rw [at_]; rfl) rfl trivial (fun _ _ h => Or.inl h)
      (answer.completeRun hs.store)
  | answer t response at_ =>
    refine .works (by rw [at_]; rfl) (by rw [at_]; rfl) rfl trivial (fun t' id h => ?_) hkept
    by_cases ht : t' = t
    · rw [ht, update_self, Option.some.injEq] at h
      rw [at_, ht, h]
      exact Or.inr rfl
    · rw [update_of_ne ht] at h
      exact Or.inl h
  | shutdown t at_ =>
    exact .works (by rw [at_]; rfl) (by rw [at_]; rfl) rfl trivial (fun _ _ h => Or.inl h) hkept
  | closeNext id ids t at_ =>
    exact .works (by rw [at_]; rfl) (by rw [at_]; rfl) rfl trivial (fun _ _ h => Or.inl h) hkept
  | closed t at_ =>
    exact .works (by rw [at_]; rfl) (by rw [at_]; rfl) rfl trivial (fun _ _ h => Or.inl h) hkept
  | acknowledge t at_ =>
    refine .stops rfl trivial (fun t' id h => ?_) hkept
    by_cases ht : t' = t
    · rw [ht, update_self, Option.some.injEq] at h
      cases h
    · rw [update_of_ne ht] at h
      exact Or.inl h
  | dropQueue | guardClosed | guardFailed | passGate | gatesFailed | closeRun | finishGuard =>
    exact .stops rfl trivial (fun _ _ h => Or.inl h) hkept
  | failGate id ids result gate at_ found finishing =>
    have hclosing : s.runs.phase id = .closing := by
      rw [phase_of_lookup found, finishing]
      rfl
    have hphase := phase_complete (mem_of_lookup found) .failedWriter
    refine ⟨rfl, .settle hclosing (by decide), trivial, fun _ _ h => Or.inl h,
      fun _ h => Or.inl h, hs.store, Or.inr ?_⟩
    refine RecorderState.step_mailbox (.fails id (Or.inr hclosing)) hphase ?_ rfl rfl ?_
    · exact (RecorderState.pending_of_settled (s := s) (by rw [at_]; rfl)).symm
    · show _ = (s.writer.isAlive = true)
      rw [at_]
      rfl

/-! ### Runs -/

section Runs

variable [DecidableEq τ] {capacity : ℕ} {s : RecorderState ε τ}

/-- Every step preserves the invariant and is a step of the mailbox or invisible in it. -/
theorem RecorderStep.effect {action : RecorderAction ε} {s' : RecorderState ε τ} (hs : s.Valid)
    (h : RecorderStep capacity s action s') :
    s'.Valid ∧ (s.mailbox = s'.mailbox ∨ Mailbox.Step s.mailbox () s'.mailbox) := by
  cases h with
  | emit t step => exact ⟨(step.effect hs).valid hs, (step.effect hs).mailbox⟩
  | finishRun t step => exact ⟨(step.effect hs).valid hs, (step.effect hs).mailbox⟩
  | control t step => exact ⟨step.effect.valid hs, step.effect.mailbox⟩
  | shutdown t step => exact ⟨step.effect.valid hs, step.effect.mailbox⟩
  | cancel t waiting => exact ⟨(cancel_effect hs t).valid hs, (cancel_effect hs t).mailbox⟩
  | writer step => exact ⟨(step.effect hs).valid hs, (step.effect hs).mailbox⟩

theorem storeExplainabilityRecorder_valid
    (hs : (storeExplainabilityRecorder ε τ capacity).Reachable s) : s.Valid :=
  hs.invariant (fun _ h => h ▸ RecorderState.valid_new) fun _ _ _ _ h hstep => (hstep.effect h).1

/-- **The recorder is a mailbox with a closing barrier.** -/
theorem storeExplainabilityRecorder_refines :
    (storeExplainabilityRecorder ε τ capacity).Refines
      (Mailbox.system ExplainabilityRunId (ExplainabilityRecord ε)) RecorderState.mailbox where
  init s h := by
    obtain rfl : s = .new := h
    exact ⟨fun _ => rfl, rfl, fun _ => rfl,
      fun id => List.map_eq_nil_iff.mpr (MemoryState.eventsOf_new id)⟩
  step s _ s' hs hstep := by
    rcases (RecorderStep.effect (storeExplainabilityRecorder_valid hs) hstep).2 with h | h
    · exact Or.inl h
    · exact Or.inr ⟨(), h⟩

/-- The persisted records of a finished run are the accepted ones. -/
theorem persistedOf_of_closed (hs : (storeExplainabilityRecorder ε τ capacity).Reachable s)
    {id : ExplainabilityRunId} (hclosed : s.runs.phase id = .closed) :
    s.persistedOf id = s.acceptedOf id :=
  Mailbox.consumed_of_closed (storeExplainabilityRecorder_refines.reachable hs) hclosed

/-- A finished run stays as it is. -/
theorem finished_stable (hs : (storeExplainabilityRecorder ε τ capacity).Reachable s)
    {id : ExplainabilityRunId} (hclosed : s.runs.phase id = .closed)
    {labels : List (RecorderAction ε)} {s' : RecorderState ε τ}
    (hrun : (storeExplainabilityRecorder ε τ capacity).Run s labels s') :
    s'.runs.phase id = .closed ∧ s'.acceptedOf id = s.acceptedOf id ∧
      s'.persistedOf id = s.persistedOf id := by
  refine System.Refines.run_invariant (P := fun m => m.phase id = .closed ∧
    m.accepted id = s.acceptedOf id ∧ m.consumed id = s.persistedOf id)
    storeExplainabilityRecorder_refines (fun m _ m' hm hP hstep => ?_) hs
    ⟨hclosed, rfl, rfl⟩ hrun
  obtain ⟨h₁, h₂, h₃⟩ := hstep.closed_stable (Mailbox.valid_of_reachable hm) hP.1
  exact ⟨h₁, h₂.trans hP.2.1, h₃.trans hP.2.2⟩

/-- The sequences and the records of a run determine its events. -/
theorem eventsOf_eq_of_persistedOf {m m' : MemoryState ε} (hm : m.Contract) (hm' : m'.Contract)
    {id : ExplainabilityRunId}
    (h : (m'.eventsOf id).map (·.record) = (m.eventsOf id).map (·.record)) :
    m'.eventsOf id = m.eventsOf id := by
  have hlength : (m'.eventsOf id).length = (m.eventsOf id).length := by
    simpa using congrArg List.length h
  have hsequences : (m'.eventsOf id).map (·.sequence) = (m.eventsOf id).map (·.sequence) := by
    rw [hm'.sequences id, hm.sequences id, hlength]
  refine List.ext_getElem hlength fun i hi hi' => ?_
  refine ExplainabilityEnvelope.eq_of_sequence_record ?_ ?_
  · simpa [hi, hi'] using congrArg (·[i]?) hsequences
  · simpa [hi, hi'] using congrArg (·[i]?) h

/-- **The store recorder never loses, duplicates or reorders an accepted event.**  At every moment
the events of a run are numbered from 1 and are a prefix of the accepted records; once `finish_run`
returned `Ok` they are all of them, for good; and `complete_run` reaches the store only for a run
that is finished. -/
theorem storeExplainabilityRecorder_keeps_accepted (capacity : ℕ) (s : RecorderState ε τ)
    (hs : (storeExplainabilityRecorder ε τ capacity).Reachable s) :
    (∀ id, (s.store.eventsOf id).map (·.sequence) =
        List.range' 1 (s.store.eventsOf id).length ∧
      (s.store.eventsOf id).map (·.record) <+: s.acceptedOf id) ∧
    (∀ t id, s.tasks t = .returnedSink (.finishRun id) (.ok ()) →
      (s.store.eventsOf id).map (·.record) = s.acceptedOf id ∧
      ∀ labels s', (storeExplainabilityRecorder ε τ capacity).Run s labels s' →
        s'.store.eventsOf id = s.store.eventsOf id ∧ s'.acceptedOf id = s.acceptedOf id) ∧
    ∀ completion s',
      (storeExplainabilityRecorder ε τ capacity).step s (.storeComplete completion) s' →
      completion.runId ∈ s.finishedRuns ∧
      (∃ gate, s.runs.lookup completion.runId = some gate ∧ gate.state = .finished) ∧
      (s.store.eventsOf completion.runId).map (·.record) = s.acceptedOf completion.runId := by
  have hvalid := storeExplainabilityRecorder_valid hs
  refine ⟨fun id => ⟨hvalid.store.sequences id, ?_⟩, fun t id hreturned => ?_,
    fun completion s' hstep => ?_⟩
  · exact Mailbox.consumed_isPrefix (storeExplainabilityRecorder_refines.reachable hs) id
  · have hclosed := (hvalid.tasks t).finished id hreturned
    refine ⟨persistedOf_of_closed hs hclosed, fun labels s' hrun => ?_⟩
    obtain ⟨-, haccepted, hpersisted⟩ := finished_stable hs hclosed hrun
    have hvalid' := storeExplainabilityRecorder_valid (hs.run hrun)
    exact ⟨eventsOf_eq_of_persistedOf hvalid.store hvalid'.store hpersisted, haccepted⟩
  · obtain ⟨hmem, hclosed⟩ : completion.runId ∈ s.finishedRuns ∧
        s.runs.phase completion.runId = .closed := by
      cases hstep with
      | writer step =>
        cases step with
        | complete _ t result store at_ finished answer =>
          exact ⟨finished, hvalid.finished _ finished⟩
    refine ⟨hmem, ?_, persistedOf_of_closed hs hclosed⟩
    obtain ⟨gate, hgate⟩ : ∃ gate, s.runs.lookup completion.runId = some gate := by
      refine Option.isSome_iff_exists.mp (AList.lookup_isSome.mpr ?_)
      by_contra h
      rw [Registry.phase_eq_absent_iff.mpr h] at hclosed
      cases hclosed
    rw [Registry.phase_of_lookup hgate] at hclosed
    exact ⟨gate, hgate, GateState.phase_eq_closed_iff.mp hclosed⟩

end Runs

/-! ### A sample run -/

/-- A record of the run `run-2`. -/
def sampleRecord : ExplainabilityRecord String where
  runId := ⟨"run-2", by decide⟩
  timestamp := ⟨2024, 2, 29, 12, 30, 0, 0, by decide⟩
  spanId := ⟨"span-2", by decide⟩
  parentSpanId := none
  event := "query started"

/-- The run of the sample record. -/
def sampleRecordRun : ExplainabilityRun where
  runId := sampleRecord.runId
  kind := .query
  status := .pending
  query := none
  queryMethod := some .local
  startedAt := sampleRecord.timestamp
  completedAt := none
  compatibilityProfile := none
  eventCount := 0

/-- A run of the recorder from a state, with a queue of one slot. -/
structure SampleRun (s : RecorderState String Unit) where
  labels : List (RecorderAction String)
  state : RecorderState String Unit
  run : (storeExplainabilityRecorder String Unit 1).Run s labels state

/-- A task creates the run, which is in the store. -/
def sampleStored : SampleRun .new := by
  have h : (storeExplainabilityRecorder String Unit 1).Run .new [] .new := .nil
  replace h := h.snoc (.control () (.create sampleRecordRun rfl))
  replace h := h.snoc (.control () (.acquire _ rfl rfl))
  replace h := h.snoc (.control () (.writerUp _ rfl rfl))
  replace h := h.snoc (.control () (.reserve _ rfl rfl (by decide)))
  replace h := h.snoc (.control () (.send _ rfl))
  replace h := h.snoc (.writer (.receive _ _ rfl rfl))
  replace h := h.snoc (.writer (.create _ _ _ rfl (by decide) .performed))
  exact ⟨_, _, h⟩

/-- The run is registered, and the task has its answer. -/
def sampleCreated : SampleRun sampleStored.state := by
  have h : (storeExplainabilityRecorder String Unit 1).Run sampleStored.state [] _ := .nil
  replace h := h.snoc (.writer (.register _ _ rfl))
  replace h := h.snoc (.writer (.insert _ _ rfl))
  replace h := h.snoc (.writer (.answer _ _ rfl))
  replace h := h.snoc (.control () (.answered _ _ rfl rfl))
  exact ⟨_, _, h⟩

/-- The task emits the record. -/
def sampleSent : SampleRun sampleCreated.state := by
  have h : (storeExplainabilityRecorder String Unit 1).Run sampleCreated.state [] _ := .nil
  replace h := h.snoc (.emit () (.start sampleRecord .new rfl rfl))
  replace h := h.snoc (.emit () (.acquireRun _ _ rfl rfl rfl))
  replace h := h.snoc (.emit () (.acquire _ rfl rfl))
  replace h := h.snoc (.emit () (.writerUp _ rfl rfl))
  replace h := h.snoc (.emit () (.gateOpen _ _ rfl rfl rfl))
  replace h := h.snoc (.emit () (.reserve _ rfl rfl (by decide)))
  replace h := h.snoc (.emit () (.send _ rfl))
  exact ⟨_, _, h⟩

theorem sampleSent_reachable :
    (storeExplainabilityRecorder String Unit 1).Reachable sampleSent.state :=
  ((System.Reachable.init rfl).run sampleStored.run |>.run sampleCreated.run).run sampleSent.run

/-- The task finishes the run. -/
theorem sampleRun_finished : ∃ s : RecorderState String Unit,
    (storeExplainabilityRecorder String Unit 1).Reachable s ∧
    s.tasks () = .returnedSink (.finishRun sampleRecord.runId) (.ok ()) ∧
    s.accepted = [sampleRecord] := by
  have h := sampleSent_reachable
  replace h := h.step (.finishRun () (.start sampleRecord.runId _ rfl rfl))
  replace h := h.step (.finishRun () (.acquireRun _ _ rfl rfl rfl))
  replace h := h.step (.finishRun () (.matchActive _ _ rfl rfl rfl))
  replace h := h.step (.writer (.receive _ _ rfl rfl))
  replace h := h.step (.writer (.persist _ _ _ rfl rfl .performed))
  replace h := h.step (.writer (.publish _ rfl))
  replace h := h.step (.writer (.send _ rfl))
  replace h := h.step (.finishRun () (.acquire _ rfl rfl))
  replace h := h.step (.finishRun () (.writerUp _ rfl rfl))
  replace h := h.step (.finishRun () (.reserve _ rfl rfl (by decide)))
  replace h := h.step (.finishRun () (.mark _ rfl))
  replace h := h.step (.finishRun () (.send _ rfl))
  replace h := h.step (.writer (.receive _ _ rfl rfl))
  replace h := h.step (.writer (.finish _ _ _ rfl rfl rfl))
  replace h := h.step (.writer (.close _ _ rfl))
  replace h := h.step (.writer (.answer _ _ rfl))
  replace h := h.step (.finishRun () (.answered _ _ rfl rfl))
  exact ⟨_, h, rfl, rfl⟩

theorem storeExplainabilityRecorder_keeps_accepted_sample : ∃ s : RecorderState String Unit,
    s.tasks () = .returnedSink (.finishRun sampleRecord.runId) (.ok ()) ∧
    (s.store.eventsOf sampleRecord.runId).map (·.record) = [sampleRecord] := by
  obtain ⟨s, hs, hreturned, haccepted⟩ := sampleRun_finished
  refine ⟨s, hreturned, ?_⟩
  rw [((storeExplainabilityRecorder_keeps_accepted 1 s hs).2.1 () _ hreturned).1,
    RecorderState.acceptedOf, haccepted]
  rfl

end GraphLoom.Explainability
