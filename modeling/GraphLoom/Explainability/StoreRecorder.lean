import GraphLoom.Explainability.Store
import GraphLoom.Foundation.Transition
import Mathlib.Data.Finset.Insert

/-!
# The store recorder

`StoreExplainabilityRecorder` owns one bounded command queue and one writer task.  Any number of
tasks call `emit`, `finish_run`, `create_run`, `complete_run` and `shutdown`; a step of the system
is what one task, or the writer, does between two points where another one can run.  The writer's
visible actions (store calls and live-hub calls) are the labels of its steps.

A run's gate is registered once and never replaced, so a task that holds the gate of a run is
represented by the run's identity.  A response channel is represented by the task that waits on it.
-/

namespace GraphLoom.Explainability

open Foundation

/-! ### Data -/

/-- State of the writer task. -/
inductive WriterStatus where
  | running
  | closing
  | closed
  | failed
deriving DecidableEq, Repr

/-- State of a run's gate. -/
inductive GateState where
  | active
  | finishing
  | finished
  | failedWriter
  | failedClosed
deriving DecidableEq, Repr

/-- Errors of the sink interface that this recorder raises. -/
inductive ExplainabilitySinkError where
  | recordNotAccepted
  | closed
  | writerFailed
  | runFinalizationFailed
deriving DecidableEq, Repr

/-- Store operations performed for the writer. -/
inductive StoreExplainabilityOperation where
  | createRun
  | appendEvents
  | completeRun
deriving DecidableEq, Repr

/-- Errors of the recorder. -/
inductive StoreExplainabilityError where
  | runAlreadyRegistered
  | runNotRegistered
  | runNotFinalized
  | envelope (source : ExplainabilityContractError)
  | store (operation : StoreExplainabilityOperation) (source : ExplainabilityStoreError)
  | sequenceOverflow
  | recordAfterFinish
  | shutdownCommand
  | writerEnded
deriving DecidableEq

/-- Result of a sink call. -/
abbrev SinkResult := Except ExplainabilitySinkError Unit

/-- Result of a control call. -/
abbrev ControlResult := Except StoreExplainabilityError Unit

variable {ε τ : Type}

/-- The gate of a run: who holds its admission permit, and its state. -/
structure RunGate (τ : Type) where
  admission : Option τ
  state : GateState
deriving DecidableEq

/-- A new gate. -/
def RunGate.new : RunGate τ := ⟨none, .active⟩

/-- `finish`: the state in which an error leaves a gate. -/
def GateState.ofError : ExplainabilitySinkError → GateState
  | .closed => .failedClosed
  | _ => .failedWriter

/-- `finish_state_result`. -/
def finishStateResult : GateState → SinkResult
  | .finished => .ok ()
  | .failedWriter => .error .writerFailed
  | .failedClosed => .error .closed
  | .active | .finishing => .error .runFinalizationFailed

/-- `writer_error`. -/
def writerError : WriterStatus → ExplainabilitySinkError
  | .failed => .writerFailed
  | .running | .closing | .closed => .closed

/-- A control call that the writer performs. -/
inductive ControlRequest where
  | createRun (run : ExplainabilityRun)
  | completeRun (completion : RunCompletion)
deriving DecidableEq

/-- A call of the recorder. -/
inductive RecorderCall (ε : Type) where
  | emit (record : ExplainabilityRecord ε)
  | finishRun (id : ExplainabilityRunId)
  | control (request : ControlRequest)
  | shutdown

/-- A command of the writer queue.  A command with a response names the task that waits for it. -/
inductive StoreWriterCommand (ε τ : Type) where
  | control (request : ControlRequest) (response : τ)
  | record (record : ExplainabilityRecord ε)
  | finishRun (id : ExplainabilityRunId) (response : τ)
  | shutdown (response : τ)

/-- An answer of the writer. -/
inductive Response where
  | control (result : ControlResult)
  | finishRun (id : ExplainabilityRunId) (result : SinkResult)
  | shutdown (result : ControlResult)

/-- Where a task stands in its call. -/
inductive TaskState (ε : Type) where
  | idle
  | returnedSink (call : RecorderCall ε) (result : SinkResult)
  | returnedControl (call : RecorderCall ε) (result : ControlResult)
  -- `emit`: wait for the run's permit, then for the queue's, check the writer and the gate, wait
  -- for a queue slot, send
  | emitGate (record : ExplainabilityRecord ε)
  | emitAdmission (record : ExplainabilityRecord ε)
  | emitCheckWriter (record : ExplainabilityRecord ε)
  | emitCheckGate (record : ExplainabilityRecord ε)
  | emitReserve (record : ExplainabilityRecord ε)
  | emitSend (record : ExplainabilityRecord ε)
  -- `finish_run`: wait for the run's permit, read the gate, wait for the queue's permit, check the
  -- writer, wait for a slot, mark the gate, send, wait for the answer
  | finishGate (id : ExplainabilityRunId)
  | finishMatch (id : ExplainabilityRunId)
  | finishAdmission (id : ExplainabilityRunId)
  | finishCheckWriter (id : ExplainabilityRunId)
  | finishReserve (id : ExplainabilityRunId)
  | finishMark (id : ExplainabilityRunId)
  | finishSend (id : ExplainabilityRunId)
  | finishAwait (id : ExplainabilityRunId)
  -- another call already finishes the run: watch the gate
  | finishWatch (id : ExplainabilityRunId)
  -- `create_run` and `complete_run`
  | controlAdmission (request : ControlRequest)
  | controlCheckWriter (request : ControlRequest)
  | controlReserve (request : ControlRequest)
  | controlSend (request : ControlRequest)
  | controlAwait (request : ControlRequest)
  -- `shutdown`
  | shutdownAdmission
  | shutdownCheckWriter
  | shutdownReserve
  | shutdownSwap
  | shutdownAwait
  | shutdownJoin (sendFailed : Bool) (acknowledgement : Option ControlResult)
  -- dropped while it waited; it is not polled again
  | cancelled

/-- Where the writer stands. -/
inductive WriterState (ε τ : Type) where
  | receiving
  | handling (command : StoreWriterCommand ε τ)
  -- a run that the store created is registered in the live hub, then in the registry
  | registering (run : ExplainabilityRun) (response : τ)
  | inserting (run : ExplainabilityRun) (response : τ)
  -- a persisted envelope is published: first its sequence, then itself
  | publishing (envelope : ExplainabilityEnvelope ε)
  | sending (envelope : ExplainabilityEnvelope ε)
  -- a finished run is closed in the live hub
  | closing (id : ExplainabilityRunId) (response : τ)
  | answering (response : τ) (answer : Response)
  -- shutdown closes the registered runs in the live hub, then the writer
  | closingAll (ids : List ExplainabilityRunId) (response : τ)
  | acknowledging (response : τ)
  -- `run_writer` returned; its queue is dropped, then its status guard runs
  | returning (result : ControlResult)
  | guarding (result : ControlResult)
  | failingGates (ids : List ExplainabilityRunId) (result : ControlResult)
  | closingRuns (ids : List ExplainabilityRunId) (result : ControlResult)
  | ended (result : ControlResult)

/-- The registry of gates. -/
abbrev Registry (τ : Type) := AList (fun _ : ExplainabilityRunId => RunGate τ)

/-- Change the gate of a run in place. -/
def Registry.modify (runs : Registry τ) (id : ExplainabilityRunId) (f : RunGate τ → RunGate τ) :
    Registry τ :=
  match runs.lookup id with
  | none => runs
  | some gate => runs.insert id (f gate)

/-- Give the permit of a run to a task. -/
def Registry.acquire (runs : Registry τ) (id : ExplainabilityRunId) (t : τ) : Registry τ :=
  runs.modify id fun gate => { gate with admission := some t }

/-- Give the permit of a run back. -/
def Registry.release (runs : Registry τ) (id : ExplainabilityRunId) : Registry τ :=
  runs.modify id fun gate => { gate with admission := none }

/-- `complete`: set the state of a gate. -/
def Registry.complete (runs : Registry τ) (id : ExplainabilityRunId) (state : GateState) :
    Registry τ :=
  runs.modify id fun gate => { gate with state := state }

/-- The recorder, its tasks, its writer and the store it drives. -/
structure RecorderState (ε τ : Type) where
  tasks : τ → TaskState ε
  runs : Registry τ
  /-- Who holds the queue's admission permit. -/
  admission : Option τ
  /-- Slots of the queue that are reserved and not yet used. -/
  reserved : ℕ
  queue : List (StoreWriterCommand ε τ)
  /-- Whether the receiver of the queue still exists. -/
  queueOpen : Bool
  writerStatus : WriterStatus
  writer : WriterState ε τ
  sequences : AList (fun _ : ExplainabilityRunId => ℕ)
  finishedRuns : Finset ExplainabilityRunId
  responses : τ → Option Response
  store : MemoryState ε
  /-- The records whose `emit` returned `Ok`, in the order the queue accepted them. -/
  accepted : List (ExplainabilityRecord ε)

/-- A task that can start a call. -/
def TaskState.isFree : TaskState ε → Bool
  | .idle | .returnedSink _ _ | .returnedControl _ _ => true
  | _ => false

/-- The run whose permit a task holds. -/
def TaskState.heldRun : TaskState ε → Option ExplainabilityRunId
  | .emitAdmission r | .emitCheckWriter r | .emitCheckGate r | .emitReserve r | .emitSend r =>
    some r.runId
  | .finishMatch id | .finishAdmission id | .finishCheckWriter id | .finishReserve id
  | .finishMark id | .finishSend id | .finishAwait id => some id
  | _ => none

/-- Whether a task holds the queue's admission permit. -/
def TaskState.holdsAdmission : TaskState ε → Bool
  | .emitCheckWriter _ | .emitCheckGate _ | .emitReserve _ | .emitSend _
  | .finishCheckWriter _ | .finishReserve _ | .finishMark _ | .finishSend _
  | .controlCheckWriter _ | .controlReserve _ | .controlSend _
  | .shutdownCheckWriter | .shutdownReserve | .shutdownSwap => true
  | _ => false

/-- Whether a task waits: its future can be dropped there. -/
def TaskState.isWaiting : TaskState ε → Bool
  | .emitGate _ | .emitAdmission _ | .emitReserve _
  | .finishGate _ | .finishAdmission _ | .finishReserve _ | .finishAwait _ | .finishWatch _
  | .controlAdmission _ | .controlReserve _ | .controlAwait _
  | .shutdownAdmission | .shutdownReserve | .shutdownAwait | .shutdownJoin _ _ => true
  | _ => false

/-- The envelope `persist_record` appends for a record, or the error it fails with before. -/
def RecorderState.nextEnvelope (s : RecorderState ε τ) (record : ExplainabilityRecord ε) :
    Except StoreExplainabilityError (ExplainabilityEnvelope ε) :=
  if record.runId ∉ s.runs then .error .runNotRegistered
  else if record.runId ∈ s.finishedRuns then .error .recordAfterFinish
  else
    match checkedAdd ((s.sequences.lookup record.runId).getD 0) 1 with
    | none => .error .sequenceOverflow
    | some sequence => (ExplainabilityEnvelope.new sequence record).mapError .envelope

/-- What a store call gives: what the store does, or a failure that changes nothing. -/
inductive StoreAnswer (s : MemoryState ε)
    (performed : Except ExplainabilityStoreError Unit × MemoryState ε) :
    Except ExplainabilityStoreError Unit → MemoryState ε → Prop
  | performed : StoreAnswer s performed performed.1 performed.2
  | failed (error : ExplainabilityStoreError) : StoreAnswer s performed (.error error) s

/-- What a step does to the store and to the live hub. -/
inductive RecorderAction (ε : Type) where
  | internal
  | storeCreate (run : ExplainabilityRun)
  | storeAppend (envelope : ExplainabilityEnvelope ε)
  | storeComplete (completion : RunCompletion)
  | hubRegister (id : ExplainabilityRunId)
  | hubSequence (envelope : ExplainabilityEnvelope ε)
  | hubSend (envelope : ExplainabilityEnvelope ε)
  | hubClose (id : ExplainabilityRunId)

/-! ### Steps of the tasks -/

variable [DecidableEq τ]

open Function (update)

/-- A step of a task inside `emit`. -/
inductive EmitStep (capacity : ℕ) (s : RecorderState ε τ) (t : τ) : RecorderState ε τ → Prop
  | unknown (r : ExplainabilityRecord ε) (free : (s.tasks t).isFree = true)
      (missing : s.runs.lookup r.runId = none) :
      EmitStep capacity s t
        { s with tasks := update s.tasks t (.returnedSink (.emit r) (.error .recordNotAccepted)) }
  | start (r : ExplainabilityRecord ε) (gate : RunGate τ) (free : (s.tasks t).isFree = true)
      (found : s.runs.lookup r.runId = some gate) :
      EmitStep capacity s t { s with tasks := update s.tasks t (.emitGate r) }
  | acquireRun (r : ExplainabilityRecord ε) (gate : RunGate τ) (at_ : s.tasks t = .emitGate r)
      (found : s.runs.lookup r.runId = some gate) (free : gate.admission = none) :
      EmitStep capacity s t
        { s with tasks := update s.tasks t (.emitAdmission r), runs := s.runs.acquire r.runId t }
  | acquire (r : ExplainabilityRecord ε) (at_ : s.tasks t = .emitAdmission r)
      (free : s.admission = none) :
      EmitStep capacity s t
        { s with tasks := update s.tasks t (.emitCheckWriter r), admission := some t }
  | writerDown (r : ExplainabilityRecord ε) (at_ : s.tasks t = .emitCheckWriter r)
      (down : s.writerStatus ≠ .running) :
      EmitStep capacity s t
        { s with
          tasks := update s.tasks t
            (.returnedSink (.emit r) (.error (writerError s.writerStatus)))
          runs := s.runs.release r.runId
          admission := none }
  | writerUp (r : ExplainabilityRecord ε) (at_ : s.tasks t = .emitCheckWriter r)
      (up : s.writerStatus = .running) :
      EmitStep capacity s t { s with tasks := update s.tasks t (.emitCheckGate r) }
  | gateShut (r : ExplainabilityRecord ε) (gate : RunGate τ) (at_ : s.tasks t = .emitCheckGate r)
      (found : s.runs.lookup r.runId = some gate) (shut : gate.state ≠ .active) :
      EmitStep capacity s t
        { s with
          tasks := update s.tasks t (.returnedSink (.emit r) (.error .recordNotAccepted))
          runs := s.runs.release r.runId
          admission := none }
  | gateOpen (r : ExplainabilityRecord ε) (gate : RunGate τ) (at_ : s.tasks t = .emitCheckGate r)
      (found : s.runs.lookup r.runId = some gate) (active : gate.state = .active) :
      EmitStep capacity s t { s with tasks := update s.tasks t (.emitReserve r) }
  | queueClosed (r : ExplainabilityRecord ε) (at_ : s.tasks t = .emitReserve r)
      (closed : s.queueOpen = false) :
      EmitStep capacity s t
        { s with
          tasks := update s.tasks t
            (.returnedSink (.emit r) (.error (writerError s.writerStatus)))
          runs := s.runs.release r.runId
          admission := none }
  | reserve (r : ExplainabilityRecord ε) (at_ : s.tasks t = .emitReserve r)
      (isOpen : s.queueOpen = true) (room : s.queue.length + s.reserved < capacity) :
      EmitStep capacity s t
        { s with tasks := update s.tasks t (.emitSend r), reserved := s.reserved + 1 }
  -- the slot is filled and `emit` returns `Ok` without another point to stop at
  | send (r : ExplainabilityRecord ε) (at_ : s.tasks t = .emitSend r) :
      EmitStep capacity s t
        { s with
          tasks := update s.tasks t (.returnedSink (.emit r) (.ok ()))
          runs := s.runs.release r.runId
          admission := none
          reserved := s.reserved - 1
          queue := s.queue ++ [.record r]
          accepted := s.accepted ++ [r] }

/-- A step of a task inside `finish_run`. -/
inductive FinishStep (capacity : ℕ) (s : RecorderState ε τ) (t : τ) : RecorderState ε τ → Prop
  | unknown (id : ExplainabilityRunId) (free : (s.tasks t).isFree = true)
      (missing : s.runs.lookup id = none) :
      FinishStep capacity s t
        { s with
          tasks := update s.tasks t
            (.returnedSink (.finishRun id) (.error .runFinalizationFailed)) }
  | start (id : ExplainabilityRunId) (gate : RunGate τ) (free : (s.tasks t).isFree = true)
      (found : s.runs.lookup id = some gate) :
      FinishStep capacity s t { s with tasks := update s.tasks t (.finishGate id) }
  | acquireRun (id : ExplainabilityRunId) (gate : RunGate τ) (at_ : s.tasks t = .finishGate id)
      (found : s.runs.lookup id = some gate) (free : gate.admission = none) :
      FinishStep capacity s t
        { s with tasks := update s.tasks t (.finishMatch id), runs := s.runs.acquire id t }
  | matchActive (id : ExplainabilityRunId) (gate : RunGate τ) (at_ : s.tasks t = .finishMatch id)
      (found : s.runs.lookup id = some gate) (active : gate.state = .active) :
      FinishStep capacity s t { s with tasks := update s.tasks t (.finishAdmission id) }
  | matchFinishing (id : ExplainabilityRunId) (gate : RunGate τ)
      (at_ : s.tasks t = .finishMatch id) (found : s.runs.lookup id = some gate)
      (finishing : gate.state = .finishing) :
      FinishStep capacity s t
        { s with tasks := update s.tasks t (.finishWatch id), runs := s.runs.release id }
  | matchFinished (id : ExplainabilityRunId) (gate : RunGate τ)
      (at_ : s.tasks t = .finishMatch id) (found : s.runs.lookup id = some gate)
      (finished : gate.state = .finished) :
      FinishStep capacity s t
        { s with
          tasks := update s.tasks t (.returnedSink (.finishRun id) (.ok ()))
          runs := s.runs.release id }
  | matchFailed (id : ExplainabilityRunId) (gate : RunGate τ) (at_ : s.tasks t = .finishMatch id)
      (found : s.runs.lookup id = some gate)
      (failed : gate.state = .failedWriter ∨ gate.state = .failedClosed) :
      FinishStep capacity s t
        { s with
          tasks := update s.tasks t
            (.returnedSink (.finishRun id) (.error .runFinalizationFailed))
          runs := s.runs.release id }
  | acquire (id : ExplainabilityRunId) (at_ : s.tasks t = .finishAdmission id)
      (free : s.admission = none) :
      FinishStep capacity s t
        { s with tasks := update s.tasks t (.finishCheckWriter id), admission := some t }
  | writerDown (id : ExplainabilityRunId) (at_ : s.tasks t = .finishCheckWriter id)
      (down : s.writerStatus ≠ .running) :
      FinishStep capacity s t
        { s with
          tasks := update s.tasks t
            (.returnedSink (.finishRun id) (.error (writerError s.writerStatus)))
          runs := (s.runs.complete id (.ofError (writerError s.writerStatus))).release id
          admission := none }
  | writerUp (id : ExplainabilityRunId) (at_ : s.tasks t = .finishCheckWriter id)
      (up : s.writerStatus = .running) :
      FinishStep capacity s t { s with tasks := update s.tasks t (.finishReserve id) }
  | queueClosed (id : ExplainabilityRunId) (at_ : s.tasks t = .finishReserve id)
      (closed : s.queueOpen = false) :
      FinishStep capacity s t
        { s with
          tasks := update s.tasks t
            (.returnedSink (.finishRun id) (.error (writerError s.writerStatus)))
          runs := (s.runs.complete id (.ofError (writerError s.writerStatus))).release id
          admission := none }
  | reserve (id : ExplainabilityRunId) (at_ : s.tasks t = .finishReserve id)
      (isOpen : s.queueOpen = true) (room : s.queue.length + s.reserved < capacity) :
      FinishStep capacity s t
        { s with tasks := update s.tasks t (.finishMark id), reserved := s.reserved + 1 }
  | mark (id : ExplainabilityRunId) (at_ : s.tasks t = .finishMark id) :
      FinishStep capacity s t
        { s with
          tasks := update s.tasks t (.finishSend id)
          runs := s.runs.complete id .finishing }
  | send (id : ExplainabilityRunId) (at_ : s.tasks t = .finishSend id) :
      FinishStep capacity s t
        { s with
          tasks := update s.tasks t (.finishAwait id)
          admission := none
          reserved := s.reserved - 1
          queue := s.queue ++ [.finishRun id t] }
  | answered (id : ExplainabilityRunId) (result : SinkResult) (at_ : s.tasks t = .finishAwait id)
      (answer : s.responses t = some (.finishRun id result)) :
      FinishStep capacity s t
        { s with
          tasks := update s.tasks t (.returnedSink (.finishRun id) result)
          runs := s.runs.release id
          responses := update s.responses t none }
  -- the response channel was dropped with the queue
  | unanswered (id : ExplainabilityRunId) (gate : RunGate τ) (at_ : s.tasks t = .finishAwait id)
      (closed : s.queueOpen = false) (none_ : s.responses t = none)
      (found : s.runs.lookup id = some gate) :
      FinishStep capacity s t
        { s with
          tasks := update s.tasks t (.returnedSink (.finishRun id) (finishStateResult gate.state))
          runs := s.runs.release id }
  | watched (id : ExplainabilityRunId) (gate : RunGate τ) (at_ : s.tasks t = .finishWatch id)
      (found : s.runs.lookup id = some gate) (changed : gate.state ≠ .finishing) :
      FinishStep capacity s t
        { s with
          tasks := update s.tasks t
            (.returnedSink (.finishRun id) (finishStateResult gate.state)) }

/-- A step of a task inside `create_run` or `complete_run`. -/
inductive ControlStep (capacity : ℕ) (s : RecorderState ε τ) (t : τ) : RecorderState ε τ → Prop
  | create (run : ExplainabilityRun) (free : (s.tasks t).isFree = true) :
      ControlStep capacity s t
        { s with tasks := update s.tasks t (.controlAdmission (.createRun run)) }
  | completeUnknown (completion : RunCompletion) (free : (s.tasks t).isFree = true)
      (missing : s.runs.lookup completion.runId = none) :
      ControlStep capacity s t
        { s with
          tasks := update s.tasks t
            (.returnedControl (.control (.completeRun completion)) (.error .runNotRegistered)) }
  | completeUnfinished (completion : RunCompletion) (gate : RunGate τ)
      (free : (s.tasks t).isFree = true) (found : s.runs.lookup completion.runId = some gate)
      (unfinished : gate.state ≠ .finished) :
      ControlStep capacity s t
        { s with
          tasks := update s.tasks t
            (.returnedControl (.control (.completeRun completion)) (.error .runNotFinalized)) }
  | complete (completion : RunCompletion) (gate : RunGate τ) (free : (s.tasks t).isFree = true)
      (found : s.runs.lookup completion.runId = some gate) (finished : gate.state = .finished) :
      ControlStep capacity s t
        { s with tasks := update s.tasks t (.controlAdmission (.completeRun completion)) }
  | acquire (request : ControlRequest) (at_ : s.tasks t = .controlAdmission request)
      (free : s.admission = none) :
      ControlStep capacity s t
        { s with tasks := update s.tasks t (.controlCheckWriter request), admission := some t }
  | writerDown (request : ControlRequest) (at_ : s.tasks t = .controlCheckWriter request)
      (down : s.writerStatus ≠ .running) :
      ControlStep capacity s t
        { s with
          tasks := update s.tasks t (.returnedControl (.control request) (.error .shutdownCommand))
          admission := none }
  | writerUp (request : ControlRequest) (at_ : s.tasks t = .controlCheckWriter request)
      (up : s.writerStatus = .running) :
      ControlStep capacity s t { s with tasks := update s.tasks t (.controlReserve request) }
  | queueClosed (request : ControlRequest) (at_ : s.tasks t = .controlReserve request)
      (closed : s.queueOpen = false) :
      ControlStep capacity s t
        { s with
          tasks := update s.tasks t (.returnedControl (.control request) (.error .shutdownCommand))
          admission := none }
  | reserve (request : ControlRequest) (at_ : s.tasks t = .controlReserve request)
      (isOpen : s.queueOpen = true) (room : s.queue.length + s.reserved < capacity) :
      ControlStep capacity s t
        { s with tasks := update s.tasks t (.controlSend request), reserved := s.reserved + 1 }
  | send (request : ControlRequest) (at_ : s.tasks t = .controlSend request) :
      ControlStep capacity s t
        { s with
          tasks := update s.tasks t (.controlAwait request)
          admission := none
          reserved := s.reserved - 1
          queue := s.queue ++ [.control request t] }
  | answered (request : ControlRequest) (result : ControlResult)
      (at_ : s.tasks t = .controlAwait request)
      (answer : s.responses t = some (.control result)) :
      ControlStep capacity s t
        { s with
          tasks := update s.tasks t (.returnedControl (.control request) result)
          responses := update s.responses t none }
  | unanswered (request : ControlRequest) (at_ : s.tasks t = .controlAwait request)
      (closed : s.queueOpen = false) (none_ : s.responses t = none) :
      ControlStep capacity s t
        { s with
          tasks := update s.tasks t (.returnedControl (.control request) (.error .writerEnded)) }

/-- The result of `shutdown`, from the writer's result and what became of the command. -/
def shutdownResult (writer : ControlResult) (sendFailed : Bool)
    (acknowledgement : Option ControlResult) : ControlResult :=
  match writer with
  | .error error => .error error
  | .ok () =>
    if sendFailed then .error .shutdownCommand
    else
      match acknowledgement with
      | some (.ok ()) => .ok ()
      | some (.error error) => .error error
      | none => .error .writerEnded

/-- A step of a task inside `shutdown`. -/
inductive ShutdownStep (capacity : ℕ) (s : RecorderState ε τ) (t : τ) : RecorderState ε τ → Prop
  | start (free : (s.tasks t).isFree = true) :
      ShutdownStep capacity s t { s with tasks := update s.tasks t .shutdownAdmission }
  | acquire (at_ : s.tasks t = .shutdownAdmission) (free : s.admission = none) :
      ShutdownStep capacity s t
        { s with tasks := update s.tasks t .shutdownCheckWriter, admission := some t }
  | writerDown (at_ : s.tasks t = .shutdownCheckWriter) (down : s.writerStatus ≠ .running) :
      ShutdownStep capacity s t
        { s with tasks := update s.tasks t (.shutdownJoin false none), admission := none }
  | writerUp (at_ : s.tasks t = .shutdownCheckWriter) (up : s.writerStatus = .running) :
      ShutdownStep capacity s t { s with tasks := update s.tasks t .shutdownReserve }
  | queueClosed (at_ : s.tasks t = .shutdownReserve) (closed : s.queueOpen = false) :
      ShutdownStep capacity s t
        { s with tasks := update s.tasks t (.shutdownJoin true none), admission := none }
  | reserve (at_ : s.tasks t = .shutdownReserve) (isOpen : s.queueOpen = true)
      (room : s.queue.length + s.reserved < capacity) :
      ShutdownStep capacity s t
        { s with tasks := update s.tasks t .shutdownSwap, reserved := s.reserved + 1 }
  | swapFailed (at_ : s.tasks t = .shutdownSwap) (down : s.writerStatus ≠ .running) :
      ShutdownStep capacity s t
        { s with
          tasks := update s.tasks t (.shutdownJoin false none)
          admission := none
          reserved := s.reserved - 1 }
  | swap (at_ : s.tasks t = .shutdownSwap) (up : s.writerStatus = .running) :
      ShutdownStep capacity s t
        { s with
          tasks := update s.tasks t .shutdownAwait
          admission := none
          reserved := s.reserved - 1
          writerStatus := .closing
          queue := s.queue ++ [.shutdown t] }
  | answered (result : ControlResult) (at_ : s.tasks t = .shutdownAwait)
      (answer : s.responses t = some (.shutdown result)) :
      ShutdownStep capacity s t
        { s with
          tasks := update s.tasks t (.shutdownJoin false (some result))
          responses := update s.responses t none }
  | unanswered (at_ : s.tasks t = .shutdownAwait) (closed : s.queueOpen = false)
      (none_ : s.responses t = none) :
      ShutdownStep capacity s t { s with tasks := update s.tasks t (.shutdownJoin false none) }
  | join (sendFailed : Bool) (acknowledgement : Option ControlResult) (result : ControlResult)
      (at_ : s.tasks t = .shutdownJoin sendFailed acknowledgement)
      (ended : s.writer = .ended result) :
      ShutdownStep capacity s t
        { s with
          tasks := update s.tasks t
            (.returnedControl .shutdown (shutdownResult result sendFailed acknowledgement)) }

/-! ### Steps of the writer -/

/-- A step of the writer, with what it does to the store and the hub. -/
inductive WriterStep (s : RecorderState ε τ) : RecorderAction ε → RecorderState ε τ → Prop
  | receive (command : StoreWriterCommand ε τ) (rest : List (StoreWriterCommand ε τ))
      (at_ : s.writer = .receiving) (first : s.queue = command :: rest) :
      WriterStep s .internal { s with writer := .handling command, queue := rest }
  -- every sender is gone
  | lost (at_ : s.writer = .receiving) (empty : s.queue = []) :
      WriterStep s .internal
        { s with writer := .returning (.error .writerEnded), writerStatus := .failed }
  -- `create_run_for_writer`
  | createRegistered (run : ExplainabilityRun) (t : τ)
      (at_ : s.writer = .handling (.control (.createRun run) t)) (registered : run.runId ∈ s.runs) :
      WriterStep s .internal
        { s with writer := .answering t (.control (.error .runAlreadyRegistered)) }
  | createFailed (run : ExplainabilityRun) (t : τ) (error : ExplainabilityStoreError)
      (store : MemoryState ε) (at_ : s.writer = .handling (.control (.createRun run) t))
      (new : run.runId ∉ s.runs)
      (answer : StoreAnswer s.store (s.store.createRun run) (.error error) store) :
      WriterStep s .internal
        { s with writer := .answering t (.control (.error (.store .createRun error))), store }
  | create (run : ExplainabilityRun) (t : τ) (store : MemoryState ε)
      (at_ : s.writer = .handling (.control (.createRun run) t)) (new : run.runId ∉ s.runs)
      (answer : StoreAnswer s.store (s.store.createRun run) (.ok ()) store) :
      WriterStep s (.storeCreate run) { s with writer := .registering run t, store }
  | register (run : ExplainabilityRun) (t : τ) (at_ : s.writer = .registering run t) :
      WriterStep s (.hubRegister run.runId) { s with writer := .inserting run t }
  | insert (run : ExplainabilityRun) (t : τ) (at_ : s.writer = .inserting run t) :
      WriterStep s .internal
        { s with
          writer := .answering t (.control (.ok ()))
          runs := s.runs.insert run.runId .new }
  -- `persist_record`
  | persistRejected (r : ExplainabilityRecord ε) (error : StoreExplainabilityError)
      (at_ : s.writer = .handling (.record r)) (rejected : s.nextEnvelope r = .error error) :
      WriterStep s .internal { s with writer := .returning (.error error), writerStatus := .failed }
  | persistFailed (r : ExplainabilityRecord ε) (envelope : ExplainabilityEnvelope ε)
      (error : ExplainabilityStoreError) (store : MemoryState ε)
      (at_ : s.writer = .handling (.record r)) (next : s.nextEnvelope r = .ok envelope)
      (answer : StoreAnswer s.store (s.store.appendEvents [envelope]) (.error error) store) :
      WriterStep s .internal
        { s with
          writer := .returning (.error (.store .appendEvents error))
          writerStatus := .failed
          store }
  | persist (r : ExplainabilityRecord ε) (envelope : ExplainabilityEnvelope ε)
      (store : MemoryState ε) (at_ : s.writer = .handling (.record r))
      (next : s.nextEnvelope r = .ok envelope)
      (answer : StoreAnswer s.store (s.store.appendEvents [envelope]) (.ok ()) store) :
      WriterStep s (.storeAppend envelope)
        { s with
          writer := .publishing envelope
          sequences := s.sequences.insert r.runId envelope.sequence
          store }
  | publish (envelope : ExplainabilityEnvelope ε) (at_ : s.writer = .publishing envelope) :
      WriterStep s (.hubSequence envelope) { s with writer := .sending envelope }
  | send (envelope : ExplainabilityEnvelope ε) (at_ : s.writer = .sending envelope) :
      WriterStep s (.hubSend envelope) { s with writer := .receiving }
  -- `finish_run_for_writer`
  | finishVoid (id : ExplainabilityRunId) (t : τ) (gate : RunGate τ)
      (at_ : s.writer = .handling (.finishRun id t)) (found : s.runs.lookup id = some gate)
      (void : gate.state ≠ .finishing) :
      WriterStep s .internal
        { s with writer := .answering t (.finishRun id (.error .runFinalizationFailed)) }
  | finish (id : ExplainabilityRunId) (t : τ) (gate : RunGate τ)
      (at_ : s.writer = .handling (.finishRun id t)) (found : s.runs.lookup id = some gate)
      (finishing : gate.state = .finishing) :
      WriterStep s .internal
        { s with
          writer := .closing id t
          finishedRuns := insert id s.finishedRuns
          runs := s.runs.complete id .finished }
  | close (id : ExplainabilityRunId) (t : τ) (at_ : s.writer = .closing id t) :
      WriterStep s (.hubClose id) { s with writer := .answering t (.finishRun id (.ok ())) }
  -- `complete_run_for_writer`
  | completeUnfinished (completion : RunCompletion) (t : τ)
      (at_ : s.writer = .handling (.control (.completeRun completion) t))
      (unfinished : completion.runId ∉ s.finishedRuns) :
      WriterStep s .internal { s with writer := .answering t (.control (.error .runNotFinalized)) }
  | complete (completion : RunCompletion) (t : τ) (result : Except ExplainabilityStoreError Unit)
      (store : MemoryState ε) (at_ : s.writer = .handling (.control (.completeRun completion) t))
      (finished : completion.runId ∈ s.finishedRuns)
      (answer : StoreAnswer s.store (s.store.completeRun completion) result store) :
      WriterStep s (.storeComplete completion)
        { s with
          writer := .answering t (.control (result.mapError (.store .completeRun)))
          store }
  | answer (t : τ) (response : Response) (at_ : s.writer = .answering t response) :
      WriterStep s .internal
        { s with writer := .receiving, responses := update s.responses t (some response) }
  -- `shutdown`
  | shutdown (t : τ) (at_ : s.writer = .handling (.shutdown t)) :
      WriterStep s .internal { s with writer := .closingAll s.runs.keys t }
  | closeNext (id : ExplainabilityRunId) (ids : List ExplainabilityRunId) (t : τ)
      (at_ : s.writer = .closingAll (id :: ids) t) :
      WriterStep s (.hubClose id) { s with writer := .closingAll ids t }
  | closed (t : τ) (at_ : s.writer = .closingAll [] t) :
      WriterStep s .internal { s with writer := .acknowledging t, writerStatus := .closed }
  | acknowledge (t : τ) (at_ : s.writer = .acknowledging t) :
      WriterStep s .internal
        { s with
          writer := .returning (.ok ())
          responses := update s.responses t (some (.shutdown (.ok ()))) }
  -- `run_writer` returned
  | dropQueue (result : ControlResult) (at_ : s.writer = .returning result) :
      WriterStep s .internal
        { s with writer := .guarding result, queue := [], queueOpen := false }
  | guardClosed (result : ControlResult) (at_ : s.writer = .guarding result)
      (closed : s.writerStatus = .closed) :
      WriterStep s .internal { s with writer := .ended result }
  | guardFailed (result : ControlResult) (at_ : s.writer = .guarding result)
      (notClosed : s.writerStatus ≠ .closed) :
      WriterStep s .internal
        { s with writer := .failingGates s.runs.keys result, writerStatus := .failed }
  | failGate (id : ExplainabilityRunId) (ids : List ExplainabilityRunId) (result : ControlResult)
      (gate : RunGate τ) (at_ : s.writer = .failingGates (id :: ids) result)
      (found : s.runs.lookup id = some gate) (finishing : gate.state = .finishing) :
      WriterStep s .internal
        { s with
          writer := .failingGates ids result
          runs := s.runs.complete id .failedWriter }
  | passGate (id : ExplainabilityRunId) (ids : List ExplainabilityRunId) (result : ControlResult)
      (gate : RunGate τ) (at_ : s.writer = .failingGates (id :: ids) result)
      (found : s.runs.lookup id = some gate) (settled : gate.state ≠ .finishing) :
      WriterStep s .internal { s with writer := .failingGates ids result }
  | gatesFailed (result : ControlResult) (at_ : s.writer = .failingGates [] result) :
      WriterStep s .internal { s with writer := .closingRuns s.runs.keys result }
  | closeRun (id : ExplainabilityRunId) (ids : List ExplainabilityRunId) (result : ControlResult)
      (at_ : s.writer = .closingRuns (id :: ids) result) :
      WriterStep s (.hubClose id) { s with writer := .closingRuns ids result }
  | finishGuard (result : ControlResult) (at_ : s.writer = .closingRuns [] result) :
      WriterStep s .internal { s with writer := .ended result }

/-! ### The system -/

/-- A task is dropped while it waits; the permits it holds are given back. -/
def RecorderState.cancel (s : RecorderState ε τ) (t : τ) : RecorderState ε τ :=
  { s with
    tasks := update s.tasks t .cancelled
    runs :=
      match (s.tasks t).heldRun with
      | some id => s.runs.release id
      | none => s.runs
    admission := if (s.tasks t).holdsAdmission then none else s.admission }

/-- A step of the recorder: of one of its tasks, or of its writer. -/
inductive RecorderStep (capacity : ℕ) :
    RecorderState ε τ → RecorderAction ε → RecorderState ε τ → Prop
  | emit {s s' : RecorderState ε τ} (t : τ) (step : EmitStep capacity s t s') :
      RecorderStep capacity s .internal s'
  | finishRun {s s' : RecorderState ε τ} (t : τ) (step : FinishStep capacity s t s') :
      RecorderStep capacity s .internal s'
  | control {s s' : RecorderState ε τ} (t : τ) (step : ControlStep capacity s t s') :
      RecorderStep capacity s .internal s'
  | shutdown {s s' : RecorderState ε τ} (t : τ) (step : ShutdownStep capacity s t s') :
      RecorderStep capacity s .internal s'
  | cancel {s : RecorderState ε τ} (t : τ) (waiting : (s.tasks t).isWaiting = true) :
      RecorderStep capacity s .internal (s.cancel t)
  | writer {s s' : RecorderState ε τ} {action : RecorderAction ε} (step : WriterStep s action s') :
      RecorderStep capacity s action s'

/-- A new recorder over an empty store, with every task idle. -/
def RecorderState.new : RecorderState ε τ where
  tasks _ := .idle
  runs := ∅
  admission := none
  reserved := 0
  queue := []
  queueOpen := true
  writerStatus := .running
  writer := .receiving
  sequences := ∅
  finishedRuns := ∅
  responses _ := none
  store := .new
  accepted := []

/-- The recorder as a transition system, for a queue of the given capacity. -/
def storeExplainabilityRecorder (ε τ : Type) [DecidableEq τ] (capacity : ℕ) :
    System (RecorderState ε τ) (RecorderAction ε) where
  init s := s = .new
  step := RecorderStep capacity

end GraphLoom.Explainability
