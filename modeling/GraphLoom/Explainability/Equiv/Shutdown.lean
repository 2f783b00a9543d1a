import GraphLoom.Explainability.Equiv.StoreRecorder

/-!
# The end of the store recorder

`shutdown` queues its command under the permit of the queue and closes the queue to everybody else
at the same time.  So nothing comes behind the command, and all that was accepted has been persisted
when it is answered (`storeExplainabilityRecorder_shutdown`).  Without an answer there is no such
order: a run that is marked behind the back of a failed writer is never settled
(`storeExplainabilityRecorder_stuck`).
-/

namespace GraphLoom.Explainability

open Foundation TaskState
open Function (update)

variable {ε τ : Type}

/-- A task that has found the writer running and may queue a command. -/
def TaskState.mayQueue : TaskState ε → Bool
  | .emitCheckGate _ | .emitReserve _ | .emitSend _ | .finishReserve _ | .finishMark _ | .finishSend _
  | .controlReserve _ | .controlSend _ | .shutdownReserve | .shutdownSwap => true
  | _ => false

theorem TaskState.holdsAdmission_of_mayQueue {state : TaskState ε} (h : state.mayQueue = true) :
    state.holdsAdmission = true := by
  cases state <;> first | rfl | cases h

/-- A task that knows that the writer has been shut down. -/
def TaskState.acknowledged : TaskState ε → Bool
  | .shutdownJoin _ (some (.ok ())) | .returnedControl .shutdown (.ok ()) => true
  | _ => false

/-- How far the writer is from its end. -/
inductive WriterPlace where
  | working
  | closing
  | closed
  | returned
  | failed
  /-- Shutdown is not answered as the other commands are. -/
  | nowhere

def WriterState.place : WriterState ε τ → WriterPlace
  | .closingAll _ _ => .closing
  | .acknowledging _ => .closed
  | .returning _ | .guarding _ | .ended _ => .returned
  | .failingGates _ _ | .closingRuns _ _ => .failed
  | .answering _ (.shutdown _) => .nowhere
  | _ => .working

/-- There is one command of shutdown, and it is the last. -/
def EndsInShutdown : List (StoreWriterCommand ε τ) → Prop
  | [] => False
  | .shutdown _ :: commands => commands = []
  | _ :: commands => EndsInShutdown commands

theorem endsInShutdown_append {commands : List (StoreWriterCommand ε τ)} (t : τ)
    (h : ∀ t', .shutdown t' ∉ commands) : EndsInShutdown (commands ++ [.shutdown t]) := by
  induction commands with
  | nil => rfl
  | cons command commands ih =>
    have hrest : ∀ t', .shutdown t' ∉ commands := fun t' hmem => h t' (List.mem_cons_of_mem _ hmem)
    cases command with
    | shutdown t' => exact absurd (List.mem_cons_self ..) (h t')
    | _ => exact ih hrest

namespace RecorderState

variable (s : RecorderState ε τ)

/-- The commands that the writer has not settled yet. -/
def commands : List (StoreWriterCommand ε τ) := s.writer.inHand.toList ++ s.queue

/-- The commands and the status at each place of the writer. -/
def WriterOk : Prop :=
  match s.writer.place with
  | .working => (s.writerStatus = .running ∧ ∀ t, .shutdown t ∉ s.commands) ∨
      s.writerStatus = .closing ∧ EndsInShutdown s.commands
  | .closing => s.writerStatus = .closing ∧ s.queue = []
  | .closed => s.writerStatus = .closed ∧ s.queue = []
  | .returned => s.writerStatus = .failed ∨ s.writerStatus = .closed ∧ s.queue = []
  | .failed => s.writerStatus = .failed
  | .nowhere => False

/-- What keeps the queue in order. -/
structure Orderly : Prop where
  admitted : ∀ t, (s.tasks t).holdsAdmission = true → s.admission = some t
  shut : s.writerStatus = .closing ∨ s.writerStatus = .closed → ∀ t, (s.tasks t).mayQueue = false
  writer : s.WriterOk
  closed : s.writerStatus = .closed → ∀ id, s.persistedOf id = s.acceptedOf id
  tasks : ∀ t, (s.tasks t).acknowledged = true → s.writerStatus = .closed
  responses : ∀ t, s.responses t = some (.shutdown (.ok ())) → s.writerStatus = .closed

theorem orderly_new : (new : RecorderState ε τ).Orderly where
  admitted _ h := by cases h
  shut h := by rcases h with h | h <;> cases h
  writer := Or.inl ⟨rfl, fun _ => List.not_mem_nil⟩
  closed h := by cases h
  tasks _ h := by cases h
  responses _ h := by cases h

end RecorderState

section Tasks

variable {s s' : RecorderState ε τ} {t : τ}

/-- What a step of task `t` does to the permit of the queue and to the queue. -/
structure Handover (s s' : RecorderState ε τ) (t : τ) : Prop where
  holds : (s'.tasks t).holdsAdmission = true → s'.admission = some t
  keeps : ∀ t', t ≠ t' → s.admission = some t' → s'.admission = some t'
  enters : (s'.tasks t).mayQueue = true → (s.tasks t).mayQueue = true ∨ s.writerStatus = .running
  queue : s'.writerStatus = s.writerStatus ∧ s'.queue = s.queue ∧ s'.accepted = s.accepted ∨
    (s.tasks t).mayQueue = true ∧ ∃ command, s'.queue = s.queue ++ [command] ∧
      (s'.writerStatus = s.writerStatus ∧ (∀ t', command ≠ .shutdown t') ∨
        s.writerStatus = .running ∧ s'.writerStatus = .closing ∧ command = .shutdown t ∧
          (s'.tasks t).mayQueue = false)
  acknowledged : (s'.tasks t).acknowledged = true →
    (s.tasks t).acknowledged = true ∨ s.responses t = some (.shutdown (.ok ()))

namespace Handover

variable (h : Handover s s' t)
include h

/-- Once the writer is closed it stays so, and nothing is accepted any more. -/
theorem stays (hs : s.Orderly) (hclosed : s.writerStatus = .closed) :
    s'.writerStatus = .closed ∧ s'.accepted = s.accepted := by
  rcases h.queue with ⟨hstatus, -, haccepted⟩ | ⟨hmay, -⟩
  · exact ⟨hstatus.trans hclosed, haccepted⟩
  · rw [hs.shut (Or.inr hclosed) t] at hmay
    cases hmay

/-- No task finds the writer running when the queue is closed. -/
theorem not_enters (hs : s.Orderly)
    (hstatus : s.writerStatus = .closing ∨ s.writerStatus = .closed) :
    (s'.tasks t).mayQueue = false := by
  by_contra hmay
  rw [Bool.not_eq_false] at hmay
  rcases h.enters hmay with hmay | hrunning
  · rw [hs.shut hstatus t] at hmay
    cases hmay
  · rw [hrunning] at hstatus
    rcases hstatus with h | h <;> cases h

theorem shut (heffect : TaskEffect s s' t) (hs : s.Orderly)
    (hstatus : s'.writerStatus = .closing ∨ s'.writerStatus = .closed) (t' : τ) :
    (s'.tasks t').mayQueue = false := by
  by_cases hne : t' = t
  · rw [hne]
    rcases h.queue with ⟨heq, -⟩ | ⟨-, _, -, ⟨heq, -⟩ | ⟨-, -, -, hnot⟩⟩
    · exact h.not_enters hs (heq ▸ hstatus)
    · exact h.not_enters hs (heq ▸ hstatus)
    · exact hnot
  · rw [heffect.others t' hne]
    rcases h.queue with ⟨heq, -⟩ | ⟨hown, -⟩
    · exact hs.shut (heq ▸ hstatus) t'
    · -- the permit is in the hands of the task that has queued a command
      by_contra hmay
      rw [Bool.not_eq_false] at hmay
      have hheld := hs.admitted t (holdsAdmission_of_mayQueue hown)
      rw [hs.admitted t' (holdsAdmission_of_mayQueue hmay)] at hheld
      exact hne (Option.some.inj hheld)

theorem writerOk (heffect : TaskEffect s s' t) (hs : s.Orderly) : s'.WriterOk := by
  have hok := hs.writer
  rw [RecorderState.WriterOk, RecorderState.commands] at hok ⊢
  rw [heffect.writer]
  rcases h.queue with ⟨hstatus, hqueue, -⟩ | ⟨hmay, command, hqueue, hcommand⟩
  · rwa [hstatus, hqueue]
  · have hopen : ¬ (s.writerStatus = .closing ∨ s.writerStatus = .closed) := by
      intro hstatus
      rw [hs.shut hstatus t] at hmay
      cases hmay
    rw [hqueue, ← List.append_assoc]
    cases hplace : s.writer.place <;> rw [hplace] at hok
    case working =>
      obtain ⟨hstatus, hnone⟩ := hok.resolve_right fun h => hopen (Or.inl h.1)
      rcases hcommand with ⟨heq, hne⟩ | ⟨-, heq, rfl, -⟩
      · refine Or.inl ⟨heq.trans hstatus, fun t' hmem => ?_⟩
        rcases List.mem_append.mp hmem with hmem | hmem
        · exact hnone t' hmem
        · exact hne t' (List.mem_singleton.mp hmem).symm
      · exact Or.inr ⟨heq, endsInShutdown_append t hnone⟩
    case returned =>
      have hstatus := hok.resolve_right fun h => hopen (Or.inr h.1)
      rcases hcommand with ⟨heq, -⟩ | ⟨hrunning, -⟩
      · exact Or.inl (heq.trans hstatus)
      · rw [hrunning] at hstatus
        cases hstatus
    case failed =>
      rcases hcommand with ⟨heq, -⟩ | ⟨hrunning, -⟩
      · exact heq.trans hok
      · rw [hrunning] at hok
        cases hok
    case closing => exact absurd (Or.inl hok.1) hopen
    case closed => exact absurd (Or.inr hok.1) hopen
    case nowhere => exact hok.elim

theorem orderly (heffect : TaskEffect s s' t) (hs : s.Orderly) : s'.Orderly := by
  have hclosed : s'.writerStatus = .closed → s.writerStatus = .closed := by
    intro hclosed
    rcases h.queue with ⟨hstatus, -⟩ | ⟨-, _, -, ⟨hstatus, -⟩ | ⟨-, hstatus, -⟩⟩ <;>
      rw [hstatus] at hclosed
    · exact hclosed
    · exact hclosed
    · cases hclosed
  refine ⟨fun t' ht' => ?_, h.shut heffect hs, h.writerOk heffect hs, fun h' id => ?_,
    fun t' ht' => (h.stays hs ?_).1,
    fun t' ht' => (h.stays hs (hs.responses t' (heffect.responses t' _ ht'))).1⟩
  · by_cases hne : t' = t
    · rw [hne] at ht' ⊢
      exact h.holds ht'
    · rw [heffect.others t' hne] at ht'
      exact h.keeps t' (Ne.symm hne) (hs.admitted t' ht')
  · rw [RecorderState.persistedOf, RecorderState.acceptedOf, heffect.store,
      (h.stays hs (hclosed h')).2]
    exact hs.closed (hclosed h') id
  · by_cases hne : t' = t
    · rw [hne] at ht'
      exact (h.acknowledged ht').elim (hs.tasks t) (hs.responses t)
    · rw [heffect.others t' hne] at ht'
      exact hs.tasks t' ht'

end Handover

variable [DecidableEq τ] {capacity : ℕ}

/-- A result of shutdown is good only when the writer has answered so. -/
theorem acknowledged_of_shutdownResult {writer : ControlResult} {sendFailed : Bool}
    {acknowledgement : Option ControlResult}
    (h : (returnedControl .shutdown
      (shutdownResult writer sendFailed acknowledgement) : TaskState ε).acknowledged = true) :
    acknowledgement = some (.ok ()) := by
  match writer, sendFailed, acknowledgement with
  | .error _, _, _ => cases h
  | .ok (), true, _ => cases h
  | .ok (), false, none => cases h
  | .ok (), false, some (.error _) => cases h
  | .ok (), false, some (.ok ()) => rfl

theorem EmitStep.handover (hs : s.Orderly) (h : EmitStep capacity s t s') : Handover s s' t := by
  have hadmitted := hs.admitted t
  cases h <;> constructor <;>
    simp_all [holdsAdmission, mayQueue, acknowledged]

theorem FinishStep.handover (hs : s.Orderly) (h : FinishStep capacity s t s') :
    Handover s s' t := by
  have hadmitted := hs.admitted t
  cases h <;> constructor <;>
    simp_all [holdsAdmission, mayQueue, acknowledged]

theorem ControlStep.handover (hs : s.Orderly) (h : ControlStep capacity s t s') :
    Handover s s' t := by
  have hadmitted := hs.admitted t
  cases h <;> constructor <;>
    simp_all [holdsAdmission, mayQueue, acknowledged]

theorem ShutdownStep.handover (hs : s.Orderly) (h : ShutdownStep capacity s t s') :
    Handover s s' t := by
  have hadmitted := hs.admitted t
  cases h with
  | answered result at_ answer =>
    cases result <;> constructor <;>
      simp_all [holdsAdmission, mayQueue, acknowledged]
  | join sendFailed acknowledgement result at_ ended =>
    constructor
    case acknowledged =>
      intro h
      simp only [Function.update_self] at h
      refine Or.inl ?_
      rw [at_, acknowledged_of_shutdownResult h]
      rfl
    all_goals simp_all [holdsAdmission, mayQueue]
  | _ =>
    constructor <;>
      simp_all [holdsAdmission, mayQueue, acknowledged]

theorem cancel_handover (hs : s.Orderly) (t : τ) : Handover s (s.cancel t) t := by
  have hadmitted := hs.admitted t
  have hkeeps : ∀ t', t ≠ t' → s.admission = some t' →
      (if (s.tasks t).holdsAdmission then none else s.admission) = some t' := by
    intro t' hne hother
    by_cases hheld : (s.tasks t).holdsAdmission = true
    · rw [hadmitted hheld, Option.some.injEq] at hother
      exact absurd hother hne
    · rw [if_neg hheld]
      exact hother
  refine ⟨?_, hkeeps, ?_, Or.inl ⟨rfl, rfl, rfl⟩, ?_⟩ <;>
    simp [RecorderState.cancel, mayQueue, acknowledged,
      holdsAdmission]

end Tasks

section Writer

variable {s s' : RecorderState ε τ} {action : RecorderAction ε}

theorem RecorderState.WriterOk.ne_closed (h : s.WriterOk) (hplace : s.writer.place = .working) :
    s.writerStatus ≠ .closed := by
  rw [RecorderState.WriterOk, hplace] at h
  rcases h with h | h <;> rw [h.1] <;> decide

variable [DecidableEq τ]

/-- A step of the writer moves no task, and accepts nothing. -/
theorem WriterStep.frame (h : WriterStep s action s') :
    s'.tasks = s.tasks ∧ s'.admission = s.admission ∧ s'.accepted = s.accepted := by
  cases h <;> exact ⟨rfl, rfl, rfl⟩

/-- A closed writer stays closed, and it closes only behind the command of shutdown. -/
theorem WriterStep.status (hs : s.Orderly) (h : WriterStep s action s') :
    (s.writerStatus = .closed → s'.writerStatus = .closed) ∧
      (s'.writerStatus = .closing ∨ s'.writerStatus = .closed →
        s.writerStatus = .closing ∨ s.writerStatus = .closed) := by
  have hok := hs.writer
  rw [RecorderState.WriterOk] at hok
  cases h <;> simp_all [WriterState.place] <;> grind

theorem WriterStep.writerOk (hs : s.Orderly) (h : WriterStep s action s') : s'.WriterOk := by
  have hok := hs.writer
  rw [RecorderState.WriterOk, RecorderState.commands] at hok ⊢
  cases h with
  | answer t response at_ =>
    cases response <;> simp_all [WriterState.place, WriterState.inHand]
  | shutdown t at_ =>
    rw [at_] at hok
    rcases hok with ⟨-, hnone⟩ | hends
    · exact absurd (List.mem_cons_self ..) (hnone t)
    · exact hends
  | dropQueue result at_ =>
    rw [at_] at hok
    exact hok.imp_right fun hclosed => ⟨hclosed.1, rfl⟩
  | _ => simp_all [WriterState.place, WriterState.inHand, EndsInShutdown]

theorem WriterStep.responses (hs : s.Orderly) (h : WriterStep s action s') (t : τ)
    (hresponse : s'.responses t = some (.shutdown (.ok ()))) :
    s.responses t = some (.shutdown (.ok ())) ∨ s.writerStatus = .closed := by
  have hok := hs.writer
  rw [RecorderState.WriterOk] at hok
  cases h <;> simp_all [WriterState.place, Function.update_apply]
  grind

theorem WriterStep.persisted (hmailbox : Mailbox.Valid s.mailbox) (hs : s.Orderly)
    (h : WriterStep s action s') (hclosed : s'.writerStatus = .closed) (id : ExplainabilityRunId) :
    s'.persistedOf id = s'.acceptedOf id := by
  have hok := hs.writer
  cases h with
  | closed t at_ =>
    -- all that was queued is settled
    rw [RecorderState.WriterOk, at_] at hok
    have hpending : s.mailbox.pending = [] := by
      show (s.writer.inHand.toList ++ s.queue).filterMap StoreWriterCommand.entry = []
      rw [at_, hok.2]
      rfl
    have haccounted := hmailbox.accounted (show s.writer.isAlive = true by rw [at_]; rfl) id
    rw [hpending, Mailbox.itemsOf, List.append_nil] at haccounted
    exact haccounted.symm
  | createFailed _ _ _ _ at_ | create _ _ _ at_ | persist _ _ _ at_ | complete _ _ _ _ at_ =>
    exact absurd hclosed (hok.ne_closed (by rw [at_]; rfl))
  | lost | persistRejected | persistFailed | guardFailed => cases hclosed
  | _ => exact hs.closed hclosed id

theorem WriterStep.orderly (hmailbox : Mailbox.Valid s.mailbox) (hs : s.Orderly)
    (h : WriterStep s action s') : s'.Orderly := by
  obtain ⟨htasks, hadmission, -⟩ := h.frame
  obtain ⟨hkept, hback⟩ := h.status hs
  refine ⟨fun t ht => ?_, fun hstatus t => ?_, h.writerOk hs, h.persisted hmailbox hs, fun t ht => ?_,
    fun t ht => ?_⟩
  · rw [htasks] at ht
    rw [hadmission]
    exact hs.admitted t ht
  · rw [htasks]
    exact hs.shut (hback hstatus) t
  · rw [htasks] at ht
    exact hkept (hs.tasks t ht)
  · exact hkept ((h.responses hs t ht).elim (hs.responses t) fun h => h)

end Writer

section Runs

variable [DecidableEq τ] {capacity : ℕ} {s s' : RecorderState ε τ} {action : RecorderAction ε}

theorem RecorderStep.orderly (hvalid : s.Valid) (hmailbox : Mailbox.Valid s.mailbox)
    (hs : s.Orderly) (h : RecorderStep capacity s action s') : s'.Orderly := by
  cases h with
  | emit t step => exact (step.handover hs).orderly (step.effect hvalid) hs
  | finishRun t step => exact (step.handover hs).orderly (step.effect hvalid) hs
  | control t step => exact (step.handover hs).orderly step.effect hs
  | shutdown t step => exact (step.handover hs).orderly step.effect hs
  | cancel t waiting => exact (cancel_handover hs t).orderly (cancel_effect hvalid t) hs
  | writer step => exact step.orderly hmailbox hs

theorem RecorderStep.stays (hs : s.Orderly) (hclosed : s.writerStatus = .closed)
    (h : RecorderStep capacity s action s') :
    s'.writerStatus = .closed ∧ s'.accepted = s.accepted := by
  cases h with
  | emit t step => exact (step.handover hs).stays hs hclosed
  | finishRun t step => exact (step.handover hs).stays hs hclosed
  | control t step => exact (step.handover hs).stays hs hclosed
  | shutdown t step => exact (step.handover hs).stays hs hclosed
  | cancel t waiting => exact (cancel_handover hs t).stays hs hclosed
  | writer step => exact ⟨(step.status hs).1 hclosed, step.frame.2.2⟩

theorem storeExplainabilityRecorder_orderly
    (hs : (storeExplainabilityRecorder ε τ capacity).Reachable s) : s.Orderly := by
  refine hs.invariant (fun _ h => h ▸ RecorderState.orderly_new) fun s _ s' hs horderly hstep => ?_
  have hmailbox := Mailbox.valid_of_reachable (storeExplainabilityRecorder_refines.reachable hs)
  exact RecorderStep.orderly (storeExplainabilityRecorder_valid hs) hmailbox horderly hstep

/-- **A shutdown that returned `Ok` has lost nothing**: all accepted records are persisted, and from
then on nothing more is accepted and no event is added. -/
theorem storeExplainabilityRecorder_shutdown (capacity : ℕ) (s : RecorderState ε τ)
    (hs : (storeExplainabilityRecorder ε τ capacity).Reachable s) (t : τ)
    (hreturned : s.tasks t = .returnedControl .shutdown (.ok ())) :
    (∀ id, (s.store.eventsOf id).map (·.record) = s.acceptedOf id) ∧
      ∀ labels s', (storeExplainabilityRecorder ε τ capacity).Run s labels s' →
        s'.accepted = s.accepted ∧ ∀ id, s'.store.eventsOf id = s.store.eventsOf id := by
  have horderly := storeExplainabilityRecorder_orderly hs
  have hclosed := horderly.tasks t (by rw [hreturned]; rfl)
  have hpersisted := horderly.closed hclosed
  refine ⟨hpersisted, fun labels s' hrun => ?_⟩
  obtain ⟨hclosed', haccepted⟩ : s'.writerStatus = .closed ∧ s'.accepted = s.accepted := by
    refine System.Run.invariant (P := fun u => u.writerStatus = .closed ∧ u.accepted = s.accepted)
      (fun u _ v hu hP hstep => ?_) hs ⟨hclosed, rfl⟩ hrun
    have hstays := RecorderStep.stays (storeExplainabilityRecorder_orderly hu) hP.1 hstep
    exact ⟨hstays.1, hstays.2.trans hP.2⟩
  have hs' := hs.run hrun
  refine ⟨haccepted, fun id => ?_⟩
  refine eventsOf_eq_of_persistedOf (storeExplainabilityRecorder_valid hs).store
    (storeExplainabilityRecorder_valid hs').store ?_
  show s'.persistedOf id = s.persistedOf id
  rw [(storeExplainabilityRecorder_orderly hs').closed hclosed', hpersisted,
    RecorderState.acceptedOf, haccepted, RecorderState.acceptedOf]

/-! ### A run that is never settled -/

/-- A call that waits for the gate of a run to change, or was dropped. -/
def TaskState.Watches (id : ExplainabilityRunId) (state : TaskState ε) : Prop :=
  state = .finishWatch id ∨ state = .cancelled

variable {id : ExplainabilityRunId}

theorem TaskEffect.watches {t : τ} (h : TaskEffect s s' t)
    (hother : ¬ (s.tasks t).Watches id) (t' : τ) (hwatches : (s.tasks t').Watches id) :
    (s'.tasks t').Watches id := by
  by_cases hne : t' = t
  · rw [hne] at hwatches
    exact absurd hwatches hother
  · rwa [h.others t' hne]

/-- A task sets a gate only while it is active. -/
theorem FinishStep.phase {t : τ} (hvalid : s.Valid)
    (h : FinishStep capacity s t s') (hne : s.runs.phase id ≠ .open) :
    s'.runs.phase id = s.runs.phase id := by
  have hset : ∀ id' state, (s.tasks t).activeRun = some id' →
      (s.runs.complete id' state).phase id = s.runs.phase id := by
    intro id' state hactive
    have hok := hvalid.tasks t
    have hheld := hok.held id' (heldRun_of_activeRun hactive)
    rw [Registry.phase_complete (Registry.mem_of_holder hheld)]
    refine Function.update_of_ne ?_ _ _
    rintro rfl
    exact hne (hok.active _ hactive)
  cases h with
  | writerDown id' at_ | queueClosed id' at_ =>
    rw [Registry.phase_release]
    exact hset id' _ (by rw [at_]; rfl)
  | mark id' at_ => exact hset id' _ (by rw [at_]; rfl)
  | _ => simp

/-- Nobody settles a gate when the writer has ended. -/
theorem RecorderStep.stuck {result : ControlResult} (hvalid : s.Valid)
    (hended : s.writer = .ended result) (hfinishing : s.runs.phase id = .closing)
    (h : RecorderStep capacity s action s') :
    s'.writer = .ended result ∧ s'.runs.phase id = .closing ∧
      ∀ t, (s.tasks t).Watches id → (s'.tasks t).Watches id := by
  cases h with
  | emit t step =>
    refine ⟨(step.effect hvalid).writer.trans hended, ?_, (step.effect hvalid).watches ?_⟩
    · cases step <;> simpa using hfinishing
    · cases step <;> simp_all [TaskState.Watches, isFree] <;> grind
  | finishRun t step =>
    refine ⟨(step.effect hvalid).writer.trans hended, ?_, (step.effect hvalid).watches ?_⟩
    · rw [step.phase hvalid (by rw [hfinishing]; decide)]
      exact hfinishing
    · cases step with
      | watched id' gate at_ found changed =>
        rw [at_]
        rintro (heq | heq) <;> cases heq
        rw [Registry.phase_of_lookup found, GateState.phase_eq_closing_iff] at hfinishing
        exact changed hfinishing
      | _ =>
        simp_all [TaskState.Watches, isFree]
        try grind
  | control t step =>
    refine ⟨step.effect.writer.trans hended, ?_, step.effect.watches ?_⟩
    · cases step <;> exact hfinishing
    · cases step <;> simp_all [TaskState.Watches, isFree] <;> grind
  | shutdown t step =>
    refine ⟨step.effect.writer.trans hended, ?_, step.effect.watches ?_⟩
    · cases step <;> exact hfinishing
    · cases step <;> simp_all [TaskState.Watches, isFree]
      grind
  | cancel t waiting =>
    refine ⟨hended, ?_, fun t' hwatches => ?_⟩
    · unfold RecorderState.cancel
      cases (s.tasks t).heldRun <;> simpa using hfinishing
    · by_cases hne : t' = t
      · exact Or.inr (by rw [hne]; exact Function.update_self ..)
      · show (update s.tasks t .cancelled t').Watches id
        rwa [Function.update_of_ne hne]
  | writer step => cases step <;> simp_all

/-- **A run that is finishing when the writer has ended never finishes**: no call of `finish_run`
returns `Ok`, and one that waits for the run waits until it is dropped. -/
theorem storeExplainabilityRecorder_stuck (capacity : ℕ) (s : RecorderState ε τ)
    (hs : (storeExplainabilityRecorder ε τ capacity).Reachable s) (result : ControlResult)
    (hended : s.writer = .ended result) (id : ExplainabilityRunId) (gate : RunGate τ)
    (found : s.runs.lookup id = some gate) (finishing : gate.state = .finishing)
    (labels : List (RecorderAction ε)) (s' : RecorderState ε τ)
    (hrun : (storeExplainabilityRecorder ε τ capacity).Run s labels s') :
    (∃ gate', s'.runs.lookup id = some gate' ∧ gate'.state = .finishing) ∧
      (∀ t, s'.tasks t ≠ .returnedSink (.finishRun id) (.ok ())) ∧
      ∀ t, s.tasks t = .finishWatch id →
        s'.tasks t = .finishWatch id ∨ s'.tasks t = .cancelled := by
  have hphase : s.runs.phase id = .closing := by
    rwa [Registry.phase_of_lookup found, GateState.phase_eq_closing_iff]
  obtain ⟨-, hphase', hwatches⟩ : s'.writer = .ended result ∧ s'.runs.phase id = .closing ∧
      ∀ t, (s.tasks t).Watches id → (s'.tasks t).Watches id := by
    refine System.Run.invariant (P := fun u => u.writer = .ended result ∧
      u.runs.phase id = .closing ∧ ∀ t, (s.tasks t).Watches id → (u.tasks t).Watches id)
      (fun u _ v hu hP hstep => ?_) hs ⟨hended, hphase, fun _ h => h⟩ hrun
    obtain ⟨hended', hphase', hwatches⟩ :=
      RecorderStep.stuck (storeExplainabilityRecorder_valid hu) hP.1 hP.2.1 hstep
    exact ⟨hended', hphase', fun t h => hwatches t (hP.2.2 t h)⟩
  refine ⟨?_, fun t hreturned => ?_, fun t h => hwatches t (Or.inl h)⟩
  · cases hgate : s'.runs.lookup id with
    | none => rw [Registry.phase, hgate] at hphase'; cases hphase'
    | some gate' =>
      rw [Registry.phase_of_lookup hgate] at hphase'
      exact ⟨gate', rfl, GateState.phase_eq_closing_iff.mp hphase'⟩
  · have hvalid := storeExplainabilityRecorder_valid (hs.run hrun)
    rw [(hvalid.tasks t).finished id hreturned] at hphase'
    cases hphase'

end Runs

/-- The recorder is shut down before the writer persists an accepted record: the record is
persisted, and stays the only one. -/
theorem storeExplainabilityRecorder_shutdown_sample : ∃ s : RecorderState String Unit,
    s.tasks () = .returnedControl .shutdown (.ok ()) ∧
    (s.store.eventsOf sampleRecord.runId).map (·.record) = [sampleRecord] ∧
    ∀ labels s', (storeExplainabilityRecorder String Unit 1).Run s labels s' →
      s'.accepted = [sampleRecord] ∧
      (s'.store.eventsOf sampleRecord.runId).map (·.record) = [sampleRecord] := by
  have h := sampleSent_reachable
  replace h := h.step (.writer (.receive _ _ rfl rfl))
  replace h := h.step (.shutdown () (.start rfl))
  replace h := h.step (.shutdown () (.acquire rfl rfl))
  replace h := h.step (.shutdown () (.writerUp rfl rfl))
  replace h := h.step (.shutdown () (.reserve rfl rfl (by decide)))
  replace h := h.step (.shutdown () (.swap rfl rfl))
  replace h := h.step (.writer (.persist _ _ _ rfl rfl .performed))
  replace h := h.step (.writer (.publish _ rfl))
  replace h := h.step (.writer (.send _ rfl))
  replace h := h.step (.writer (.receive _ _ rfl rfl))
  replace h := h.step (.writer (.shutdown _ rfl))
  replace h := h.step (.writer (.closeNext _ _ _ rfl))
  replace h := h.step (.writer (.closed _ rfl))
  replace h := h.step (.writer (.acknowledge _ rfl))
  replace h := h.step (.writer (.dropQueue _ rfl))
  replace h := h.step (.writer (.guardClosed _ rfl rfl))
  replace h := h.step (.shutdown () (.answered _ rfl rfl))
  replace h := h.step (.shutdown () (.join _ _ _ rfl rfl))
  obtain ⟨hpersisted, hstays⟩ := storeExplainabilityRecorder_shutdown 1 _ h () rfl
  have hrecord := hpersisted sampleRecord.runId
  refine ⟨_, rfl, hrecord, fun labels s' hrun => ?_⟩
  obtain ⟨haccepted, hevents⟩ := hstays labels s' hrun
  exact ⟨haccepted, by rw [hevents]; exact hrecord⟩

/-- The store fails on a record while its run waits to be finished, and the run is marked behind
that: it is never finished. -/
theorem storeExplainabilityRecorder_stuck_sample : ∃ s : RecorderState String Unit,
    s.writerStatus = .failed ∧ s.accepted = [sampleRecord] ∧
    ∀ labels s', (storeExplainabilityRecorder String Unit 1).Run s labels s' →
      ∃ gate, s'.runs.lookup sampleRecord.runId = some gate ∧ gate.state = .finishing := by
  have h := sampleSent_reachable
  replace h := h.step (.writer (.receive _ _ rfl rfl))
  replace h := h.step (.finishRun () (.start sampleRecord.runId _ rfl rfl))
  replace h := h.step (.finishRun () (.acquireRun _ _ rfl rfl rfl))
  replace h := h.step (.finishRun () (.matchActive _ _ rfl rfl rfl))
  replace h := h.step (.finishRun () (.acquire _ rfl rfl))
  replace h := h.step (.finishRun () (.writerUp _ rfl rfl))
  replace h := h.step (.finishRun () (.reserve _ rfl rfl (by decide)))
  replace h := h.step (.writer (.persistFailed _ _ (.internal "append") _ rfl rfl (.failed _)))
  replace h := h.step (.writer (.dropQueue _ rfl))
  replace h := h.step (.writer (.guardFailed _ rfl (by decide)))
  replace h := h.step (.writer (.passGate _ _ _ _ rfl rfl (by decide)))
  replace h := h.step (.writer (.gatesFailed _ rfl))
  replace h := h.step (.writer (.closeRun _ _ _ rfl))
  replace h := h.step (.writer (.finishGuard _ rfl))
  replace h := h.step (.finishRun () (.mark _ rfl))
  exact ⟨_, rfl, rfl, fun labels s' hrun =>
    (storeExplainabilityRecorder_stuck 1 _ h _ rfl _ _ rfl rfl labels s' hrun).1⟩

end GraphLoom.Explainability
