import GraphLoom.Explainability.Record
import GraphLoom.Foundation.Machine
import Mathlib.Data.List.AList
import Mathlib.Data.List.Sort

/-!
# The in-memory store

`InMemoryExplainabilityStore` keeps a map of runs and a map of event lists behind one lock, so an
operation is a function of the two maps.  Each operation returns its result together with the maps
it leaves behind, the failing exits included.
-/

namespace GraphLoom.Explainability

/-! ### Errors -/

/-- Failure categories of the persistence contract.  A backend error keeps the operation it
happened in and drops its source. -/
inductive ExplainabilityStoreError where
  | runAlreadyExists (runId : ExplainabilityRunId)
  | runNotFound (runId : ExplainabilityRunId)
  | invalidRunMetadata (runId : ExplainabilityRunId) (reason : String)
  | invalidRunState (runId : ExplainabilityRunId) (state : ExplainabilityRunStatus)
  | runAlreadyTerminal (runId : ExplainabilityRunId)
  | mixedRunBatch (first second : ExplainabilityRunId)
  | sequenceConflict (runId : ExplainabilityRunId) (expected actual : ℕ)
  | sequenceOverflow (runId : ExplainabilityRunId)
  | invalidCompletionStatus (status : ExplainabilityRunStatus)
  | invalidCompletionTime (runId : ExplainabilityRunId) (completedAt startedAt : DateTime)
  | completionConflict (runId : ExplainabilityRunId)
  | invalidLimit (kind : String) (limit min max : ℕ)
  | internal (operation : String)
deriving DecidableEq

/-! ### Arguments of the operations -/

/-- Completion metadata of one run.  The stores check the status again, so any status is allowed
here. -/
structure RunCompletion where
  runId : ExplainabilityRunId
  status : ExplainabilityRunStatus
  completedAt : DateTime
deriving DecidableEq

/-- The position of a run in the history order. -/
structure RunListCursor where
  startedAt : DateTime
  runId : ExplainabilityRunId
deriving DecidableEq

/-- Filtered, cursor-based run history query. -/
structure RunQuery where
  kind : Option ExplainabilityRunKind
  status : Option ExplainabilityRunStatus
  queryMethod : Option ExplainabilityQueryMethod
  before : Option RunListCursor
  limit : ℕ
deriving DecidableEq

/-- Bounded event replay query of one run. -/
structure EventQuery where
  afterSequence : Option ℕ
  limit : ℕ
deriving DecidableEq

/-- Maximum page size of run history queries. -/
def maxRunQueryLimit : ℕ := 200

/-- Maximum page size of event replay queries. -/
def maxEventQueryLimit : ℕ := 1000

/-! ### Validation -/

/-- Validate a query limit against an inclusive range. -/
def validateLimit (limit min max : ℕ) (kind : String) : Except ExplainabilityStoreError Unit :=
  if min ≤ limit ∧ limit ≤ max then .ok () else .error (.invalidLimit kind limit min max)

/-- The creation invariants of a new run. -/
def validateCreateRun (run : ExplainabilityRun) : Except ExplainabilityStoreError Unit :=
  if run.eventCount ≠ 0 then
    .error (.invalidRunMetadata run.runId "initial event_count must be 0")
  else if run.completedAt.isSome then
    .error (.invalidRunMetadata run.runId "a new run cannot already be completed")
  else if isTerminal run.status then
    .error (.invalidRunState run.runId run.status)
  else if run.kind ≠ .query ∧ run.queryMethod.isSome then
    .error (.invalidRunMetadata run.runId "query_method is only valid for query runs")
  else .ok ()

/-- Whether a run is strictly older than a cursor, under `started_at DESC, run_id DESC`. -/
def isStrictlyOlderThan (run : ExplainabilityRun) (cursor : RunListCursor) : Bool :=
  run.startedAt < cursor.startedAt ∨
    run.startedAt = cursor.startedAt ∧ run.runId.asStr < cursor.runId.asStr

/-! ### State -/

variable {ε : Type}

/-- The shared state of the in-memory store. -/
structure MemoryState (ε : Type) where
  runs : AList (fun _ : ExplainabilityRunId => ExplainabilityRun)
  events : AList (fun _ : ExplainabilityRunId => List (ExplainabilityEnvelope ε))

namespace MemoryState

/-- The empty store. -/
def new : MemoryState ε := ⟨∅, ∅⟩

/-- The stored record of a run. -/
def run (s : MemoryState ε) (id : ExplainabilityRunId) : Option ExplainabilityRun :=
  s.runs.lookup id

/-- The stored events of a run, none when the run has no entry. -/
def eventsOf (s : MemoryState ε) (id : ExplainabilityRunId) : List (ExplainabilityEnvelope ε) :=
  (s.events.lookup id).getD []

/-! ### Mutations -/

/-- `create_run`. -/
def createRun (s : MemoryState ε) (run : ExplainabilityRun) :
    Except ExplainabilityStoreError Unit × MemoryState ε :=
  match validateCreateRun run with
  | .error e => (.error e, s)
  | .ok () =>
    if run.runId ∈ s.runs then (.error (.runAlreadyExists run.runId), s)
    else (.ok (), { s with runs := s.runs.insert run.runId run })

/-- The loop of `append_events` over the batch: each envelope must carry the next sequence. -/
def appendLoop (runId : ExplainabilityRunId) (nextSequence : ℕ)
    (pending : List (ExplainabilityEnvelope ε)) : List (ExplainabilityEnvelope ε) →
    Except ExplainabilityStoreError (ℕ × List (ExplainabilityEnvelope ε))
  | [] => .ok (nextSequence, pending)
  | envelope :: rest =>
    match checkedAdd nextSequence 1 with
    | none => .error (.sequenceOverflow runId)
    | some expected =>
      if envelope.sequence ≠ expected then
        .error (.sequenceConflict runId expected envelope.sequence)
      else appendLoop runId expected (pending ++ [envelope]) rest

/-- `append_events`. -/
def appendEvents (s : MemoryState ε) (events : List (ExplainabilityEnvelope ε)) :
    Except ExplainabilityStoreError Unit × MemoryState ε :=
  match events with
  | [] => (.ok (), s)
  | first :: _ =>
    let firstRun := first.record.runId
    match events.find? (fun envelope => envelope.record.runId ≠ firstRun) with
    | some mixed => (.error (.mixedRunBatch firstRun mixed.record.runId), s)
    | none =>
      match s.run firstRun with
      | none => (.error (.runNotFound firstRun), s)
      | some run =>
        if isTerminal run.status then (.error (.runAlreadyTerminal firstRun), s)
        else
          match appendLoop firstRun run.eventCount [] events with
          | .error e => (.error e, s)
          | .ok (nextSequence, pending) =>
            (.ok (),
              { runs := s.runs.insert firstRun { run with eventCount := nextSequence }
                events := s.events.insert firstRun (s.eventsOf firstRun ++ pending) })

/-- `complete_run`. -/
def completeRun (s : MemoryState ε) (completion : RunCompletion) :
    Except ExplainabilityStoreError Unit × MemoryState ε :=
  if !isTerminal completion.status then
    (.error (.invalidCompletionStatus completion.status), s)
  else
    match s.run completion.runId with
    | none => (.error (.runNotFound completion.runId), s)
    | some run =>
      if completion.completedAt < run.startedAt then
        (.error (.invalidCompletionTime run.runId completion.completedAt run.startedAt), s)
      else if run.completedAt.isSome ∨ isTerminal run.status then
        if run.status = completion.status ∧ run.completedAt = some completion.completedAt then
          (.ok (), s)
        else (.error (.completionConflict run.runId), s)
      else
        (.ok (),
          { s with
            runs := s.runs.insert completion.runId
              { run with
                status := completion.status
                completedAt := some completion.completedAt } })

/-- `delete_run`. -/
def deleteRun (s : MemoryState ε) (id : ExplainabilityRunId) :
    Except ExplainabilityStoreError Unit × MemoryState ε :=
  (.ok (), { runs := s.runs.erase id, events := s.events.erase id })

/-! ### Reads -/

/-- `get_run`. -/
def getRun (s : MemoryState ε) (id : ExplainabilityRunId) :
    Except ExplainabilityStoreError (Option ExplainabilityRun) :=
  .ok (s.run id)

/-- The filters of a run history query. -/
def matchesQuery (query : RunQuery) (run : ExplainabilityRun) : Bool :=
  query.kind.all (fun kind => run.kind = kind) &&
  query.status.all (fun status => run.status = status) &&
  query.queryMethod.all (fun method => run.queryMethod = some method) &&
  query.before.all (fun cursor => isStrictlyOlderThan run cursor)

/-- The metadata of every run matching the query, in the order of the map. -/
def collectMatchingRuns (s : MemoryState ε) (query : RunQuery) : List ExplainabilityRun :=
  (s.runs.entries.map Sigma.snd).filter (matchesQuery query)

/-- The history order: `started_at DESC`, then `run_id DESC`. -/
def historyOrder (left right : ExplainabilityRun) : Prop :=
  right.startedAt < left.startedAt ∨
    right.startedAt = left.startedAt ∧ right.runId.asStr ≤ left.runId.asStr

instance : DecidableRel historyOrder := fun left right =>
  inferInstanceAs (Decidable (right.startedAt < left.startedAt ∨
    right.startedAt = left.startedAt ∧ right.runId.asStr ≤ left.runId.asStr))

/-- Sort run metadata and apply the page limit. -/
def orderAndLimitRuns (runs : List ExplainabilityRun) (limit : ℕ) : List ExplainabilityRun :=
  (runs.insertionSort historyOrder).take limit

/-- `list_runs`. -/
def listRuns (s : MemoryState ε) (query : RunQuery) :
    Except ExplainabilityStoreError (List ExplainabilityRun) :=
  match validateLimit query.limit 1 maxRunQueryLimit "run history" with
  | .error e => .error e
  | .ok () => .ok (orderAndLimitRuns (s.collectMatchingRuns query) query.limit)

/-- `load_events`. -/
def loadEvents (s : MemoryState ε) (id : ExplainabilityRunId) (query : EventQuery) :
    Except ExplainabilityStoreError (List (ExplainabilityEnvelope ε)) :=
  match validateLimit query.limit 1 maxEventQueryLimit "event replay" with
  | .error e => .error e
  | .ok () =>
    if id ∈ s.runs then
      let after := query.afterSequence.getD 0
      .ok (((s.eventsOf id).filter fun envelope => after < envelope.sequence).take query.limit)
    else .error (.runNotFound id)

end MemoryState

/-! ### Calls -/

/-- One call of the store interface. -/
inductive StoreCall (ε : Type) where
  | createRun (run : ExplainabilityRun)
  | appendEvents (events : List (ExplainabilityEnvelope ε))
  | completeRun (completion : RunCompletion)
  | getRun (id : ExplainabilityRunId)
  | listRuns (query : RunQuery)
  | loadEvents (id : ExplainabilityRunId) (query : EventQuery)
  | deleteRun (id : ExplainabilityRunId)

/-- What a call returns when it succeeds. -/
inductive StoreReply (ε : Type) where
  | done
  | run (run : Option ExplainabilityRun)
  | runs (runs : List ExplainabilityRun)
  | events (events : List (ExplainabilityEnvelope ε))
deriving DecidableEq

/-- The result of a call. -/
abbrev StoreResult (ε : Type) := Except ExplainabilityStoreError (StoreReply ε)

/-- Answer one call. -/
def MemoryState.call (s : MemoryState ε) : StoreCall ε → StoreResult ε × MemoryState ε
  | .createRun run => (s.createRun run).map (Except.map fun _ => .done) id
  | .appendEvents events => (s.appendEvents events).map (Except.map fun _ => .done) id
  | .completeRun completion => (s.completeRun completion).map (Except.map fun _ => .done) id
  | .getRun runId => ((s.getRun runId).map .run, s)
  | .listRuns query => ((s.listRuns query).map .runs, s)
  | .loadEvents runId query => ((s.loadEvents runId query).map .events, s)
  | .deleteRun runId => (s.deleteRun runId).map (Except.map fun _ => .done) id

/-- The in-memory store as a machine. -/
def inMemoryExplainabilityStore (ε : Type) :
    Foundation.Machine (MemoryState ε) (StoreCall ε) (StoreResult ε) where
  init := .new
  step := MemoryState.call

end GraphLoom.Explainability
