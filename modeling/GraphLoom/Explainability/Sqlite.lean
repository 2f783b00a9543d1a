import GraphLoom.Explainability.Store
import GraphLoom.Foundation.FixedWidth

/-!
# The SQLite store

`SqliteExplainabilityStore` keeps runs and events as rows of two tables.  A table is a list of rows;
`SELECT … WHERE` filters it, `ORDER BY … LIMIT` sorts and cuts the selection, and TEXT is compared
character by character (UTF-8 bytes compare as their characters do).  A transaction that does not
commit leaves the tables as they were.

How `serde_json` writes the business event of an envelope as text, and reads it back, is a parameter
(`EventCodec`).
-/

namespace GraphLoom.Explainability

open Foundation

/-! ### Rows -/

/-- A row of `explainability_runs`. -/
structure RunRow where
  runId : String
  kind : String
  status : String
  query : Option String
  queryMethod : Option String
  startedAt : String
  completedAt : Option String
  compatibilityProfile : Option String
  eventCount : ℤ
deriving DecidableEq

/-- A row of `explainability_events`. -/
structure EventRow where
  runId : String
  sequence : ℤ
  schemaVersion : ℤ
  spanId : String
  parentSpanId : Option String
  timestamp : String
  eventType : String
  payloadJson : String
deriving DecidableEq

/-- The two tables. -/
structure SqliteState where
  runs : List RunRow
  events : List EventRow
deriving DecidableEq

/-! ### Failures -/

/-- Backend failures of the store. -/
inductive SqliteStoreBackendError where
  | sqlite
  | invalidPersistedValue
  | integerOutOfRange (field : String)
  | serialization
deriving DecidableEq

/-- Failure of a closure that runs on the connection. -/
inductive SqliteStoreFailure where
  | backend (error : SqliteStoreBackendError)
  | store (error : ExplainabilityStoreError)
deriving DecidableEq

/-- The store error a failure is reported as. -/
def SqliteStoreFailure.report (operation : String) : SqliteStoreFailure → ExplainabilityStoreError
  | .backend _ => .internal operation
  | .store error => error

/-- Lift a backend result into the connection's failure type (the `?` operator). -/
def liftBackend {α : Type} : Except SqliteStoreBackendError α → Except SqliteStoreFailure α
  | .error e => .error (.backend e)
  | .ok a => .ok a

/-! ### Enumerations as text -/

namespace ExplainabilityRunKind

/-- The stored text of a run kind. -/
def toSqlText : ExplainabilityRunKind → String
  | .index => "index"
  | .update => "update"
  | .query => "query"
  | .promptTune => "prompt_tune"

/-- Read a run kind. -/
def fromSqlText : String → Except SqliteStoreBackendError ExplainabilityRunKind
  | "index" => .ok .index
  | "update" => .ok .update
  | "query" => .ok .query
  | "prompt_tune" => .ok .promptTune
  | _ => .error .invalidPersistedValue

end ExplainabilityRunKind

namespace ExplainabilityRunStatus

/-- The stored text of a run status. -/
def toSqlText : ExplainabilityRunStatus → String
  | .pending => "pending"
  | .running => "running"
  | .completed => "completed"
  | .failed => "failed"
  | .cancelled => "cancelled"

/-- Read a run status. -/
def fromSqlText : String → Except SqliteStoreBackendError ExplainabilityRunStatus
  | "pending" => .ok .pending
  | "running" => .ok .running
  | "completed" => .ok .completed
  | "failed" => .ok .failed
  | "cancelled" => .ok .cancelled
  | _ => .error .invalidPersistedValue

end ExplainabilityRunStatus

namespace ExplainabilityQueryMethod

/-- The stored text of a query method. -/
def toSqlText : ExplainabilityQueryMethod → String
  | .basic => "basic"
  | .local => "local"
  | .global => "global"
  | .drift => "drift"

/-- Read a query method. -/
def fromSqlText : String → Except SqliteStoreBackendError ExplainabilityQueryMethod
  | "basic" => .ok .basic
  | "local" => .ok .local
  | "global" => .ok .global
  | "drift" => .ok .drift
  | _ => .error .invalidPersistedValue

end ExplainabilityQueryMethod

/-! ### Timestamps as text -/

/-- The columns of a canonical timestamp. -/
def timestampColumns : List Column :=
  [([], 4), (['-'], 2), (['-'], 2), (['T'], 2), ([':'], 2), ([':'], 2), (['.'], 9)]

/-- The seconds and nanoseconds `to_rfc3339_opts` writes: a leap second is written as the next
second. -/
def DateTime.writtenSecond (t : DateTime) : ℕ × ℕ :=
  if 1000000000 ≤ t.nanosecond then (t.second + 1, t.nanosecond - 1000000000)
  else (t.second, t.nanosecond)

/-- The numbers of the written timestamp. -/
def DateTime.writtenFields (t : DateTime) : List ℕ :=
  [t.year.toNat, t.month, t.day, t.hour, t.minute, t.writtenSecond.1, t.writtenSecond.2]

/-- A year outside `0..=9999` is written with a sign and at least four digits. -/
def signedYear (year : ℤ) : List Char :=
  let digits := Nat.toDigits 10 year.natAbs
  (if year < 0 then '-' else '+') :: (List.replicate (4 - digits.length) '0' ++ digits)

/-- `datetime_to_sql_text`: `to_rfc3339_opts(SecondsFormat::Nanos, true)`. -/
def datetimeToSqlText (t : DateTime) : String :=
  if 0 ≤ t.year ∧ t.year ≤ 9999 then
    String.ofList (renderColumns ['Z'] timestampColumns t.writtenFields)
  else
    String.ofList (signedYear t.year ++
      renderColumns ['Z'] timestampColumns.tail t.writtenFields.tail)

/-- The timestamp that canonical text denotes.  A 60th second is the leap second after the 59th. -/
def timestampOfFields : List ℕ → Option DateTime
  | [year, month, day, hour, minute, second, nanosecond] =>
    let (second, nanosecond) :=
      if second = 60 then (59, nanosecond + 1000000000) else (second, nanosecond)
    if h : isCalendarTime year month day hour minute second nanosecond = true then
      some ⟨year, month, day, hour, minute, second, nanosecond, h⟩
    else none
  | _ => none

/-- `datetime_from_sql_text`.  The source parses any RFC 3339 text and then rejects the texts that
are not written back unchanged, so only canonical texts have to be parsed. -/
def datetimeFromSqlText (value : String) : Except SqliteStoreBackendError DateTime :=
  match (readColumns ['Z'] timestampColumns value.toList).bind timestampOfFields with
  | none => .error .invalidPersistedValue
  | some parsed =>
    if datetimeToSqlText parsed ≠ value then .error .invalidPersistedValue else .ok parsed

/-- Read a nullable timestamp column. -/
def optionalDatetimeFromSqlText :
    Option String → Except SqliteStoreBackendError (Option DateTime)
  | none => .ok none
  | some text => (datetimeFromSqlText text).map some

/-! ### Integers and the persisted lifecycle -/

/-- The largest `i64`. -/
def i64Max : ℕ := 2 ^ 63 - 1

/-- `u64_to_sqlite_integer`. -/
def u64ToSqliteInteger (value : ℕ) (field : String) : Except SqliteStoreBackendError ℤ :=
  if value ≤ i64Max then .ok value else .error (.integerOutOfRange field)

/-- `sqlite_integer_to_u64`. -/
def sqliteIntegerToU64 (value : ℤ) (field : String) : Except SqliteStoreBackendError ℕ :=
  if 0 ≤ value then .ok value.toNat else .error (.integerOutOfRange field)

/-- Non-terminal runs have no completion time; terminal runs have one that is not earlier than the
start. -/
def validatePersistedRunLifecycle (status : ExplainabilityRunStatus) (startedAt : DateTime)
    (completedAt : Option DateTime) : Except SqliteStoreBackendError Unit :=
  if isTerminal status ≠ completedAt.isSome then .error .invalidPersistedValue
  else
    match completedAt with
    | some completedAt =>
      if completedAt < startedAt then .error .invalidPersistedValue else .ok ()
    | none => .ok ()

/-! ### Rows and values -/

/-- `run_from_row`. -/
def runFromRow (row : RunRow) : Except SqliteStoreBackendError ExplainabilityRun := do
  let runId ← (Identifier.fromStr _ row.runId).mapError fun _ => .invalidPersistedValue
  let kind ← ExplainabilityRunKind.fromSqlText row.kind
  let status ← ExplainabilityRunStatus.fromSqlText row.status
  let queryMethod ← row.queryMethod.mapM ExplainabilityQueryMethod.fromSqlText
  let startedAt ← datetimeFromSqlText row.startedAt
  let completedAt ← optionalDatetimeFromSqlText row.completedAt
  let eventCount ← sqliteIntegerToU64 row.eventCount "event_count"
  if kind ≠ .query ∧ queryMethod.isSome then
    .error .invalidPersistedValue
  else do
    validatePersistedRunLifecycle status startedAt completedAt
    return {
      runId, kind, status, query := row.query, queryMethod, startedAt, completedAt,
      compatibilityProfile := row.compatibilityProfile, eventCount }

/-- The row `insert_run` writes for a new run. -/
def newRunRow (run : ExplainabilityRun) : RunRow where
  runId := run.runId.asStr
  kind := run.kind.toSqlText
  status := run.status.toSqlText
  query := run.query
  queryMethod := run.queryMethod.map ExplainabilityQueryMethod.toSqlText
  startedAt := datetimeToSqlText run.startedAt
  completedAt := none
  compatibilityProfile := run.compatibilityProfile
  eventCount := 0

/-- How `serde_json` turns an event into a JSON value and text, and back. -/
structure EventCodec (ε : Type) where
  /-- The JSON values. -/
  Value : Type
  /-- `serde_json::to_value`. -/
  toValue : ε → Option Value
  /-- The text under the `type` key of a value. -/
  typeOf : Value → Option String
  /-- `serde_json::to_string`. -/
  toText : Value → Option String
  /-- `serde_json::from_str`. -/
  parse : String → Option Value
  /-- `serde_json::from_value`. -/
  fromValue : Value → Option ε

/-- An event made ready for insertion, with its sequence as the envelope had it. -/
structure PreparedEvent where
  sequence : ℕ
  row : EventRow
deriving DecidableEq

variable {ε : Type} (codec : EventCodec ε)

/-- `prepare_event`. -/
def prepareEvent (envelope : ExplainabilityEnvelope ε) :
    Except SqliteStoreBackendError PreparedEvent :=
  if envelope.schemaVersion ≠ explainabilitySchemaVersion then .error .invalidPersistedValue
  else do
    let payload ← (codec.toValue envelope.record.event).elim (.error .serialization) .ok
    let eventType ← (codec.typeOf payload).elim (.error .invalidPersistedValue) .ok
    let payloadJson ← (codec.toText payload).elim (.error .serialization) .ok
    let sequence ← u64ToSqliteInteger envelope.sequence "sequence"
    return {
      sequence := envelope.sequence
      row := {
        runId := envelope.record.runId.asStr
        sequence
        schemaVersion := envelope.schemaVersion
        spanId := envelope.record.spanId.asStr
        parentSpanId := envelope.record.parentSpanId.map Identifier.asStr
        timestamp := datetimeToSqlText envelope.record.timestamp
        eventType
        payloadJson } }

/-- `envelope_from_row`. -/
def envelopeFromRow (row : EventRow) :
    Except SqliteStoreBackendError (ExplainabilityEnvelope ε) := do
  let runId ← (Identifier.fromStr _ row.runId).mapError fun _ => .invalidPersistedValue
  let spanId ← (Identifier.fromStr _ row.spanId).mapError fun _ => .invalidPersistedValue
  let parentSpanId ← row.parentSpanId.mapM fun text =>
    (Identifier.fromStr _ text).mapError fun _ => .invalidPersistedValue
  let timestamp ← datetimeFromSqlText row.timestamp
  let sequence ← sqliteIntegerToU64 row.sequence "sequence"
  if row.schemaVersion ≠ explainabilitySchemaVersion then .error .invalidPersistedValue
  else do
    let payload ← (codec.parse row.payloadJson).elim (.error .serialization) .ok
    let payloadType ← (codec.typeOf payload).elim (.error .invalidPersistedValue) .ok
    if payloadType ≠ row.eventType then .error .invalidPersistedValue
    else do
      let event ← (codec.fromValue payload).elim (.error .serialization) .ok
      (ExplainabilityEnvelope.new sequence { runId, timestamp, spanId, parentSpanId, event }).mapError
        fun _ => .invalidPersistedValue

/-! ### Statements -/

namespace SqliteState

/-- The empty database. -/
def new : SqliteState := ⟨[], []⟩

/-- `SELECT … FROM explainability_runs WHERE run_id = ?`. -/
def runRow (s : SqliteState) (runId : String) : Option RunRow :=
  s.runs.find? fun row => row.runId = runId

/-- `SELECT EXISTS(SELECT 1 FROM explainability_runs WHERE run_id = ?)`. -/
def runExists (s : SqliteState) (runId : String) : Bool := (s.runRow runId).isSome

/-- `INSERT INTO explainability_runs`, which enforces the primary key and the count check. -/
def insertRunRow (s : SqliteState) (row : RunRow) : Except SqliteStoreBackendError SqliteState :=
  if s.runExists row.runId = true ∨ row.eventCount < 0 then .error .sqlite
  else .ok { s with runs := s.runs ++ [row] }

/-- `UPDATE explainability_runs SET … WHERE …`, with the number of updated rows. -/
def updateRuns (s : SqliteState) (condition : RunRow → Bool) (set : RunRow → RunRow) :
    ℕ × SqliteState :=
  ((s.runs.filter condition).length,
    { s with runs := s.runs.map fun row => if condition row then set row else row })

/-- `INSERT INTO explainability_events`, which enforces the primary key, the sequence check and the
foreign key. -/
def insertEventRow (s : SqliteState) (row : EventRow) :
    Except SqliteStoreBackendError SqliteState :=
  if (s.events.any fun other => other.runId = row.runId ∧ other.sequence = row.sequence) = true ∨
      row.sequence ≤ 0 ∨ s.runExists row.runId = false then .error .sqlite
  else .ok { s with events := s.events ++ [row] }

/-- `DELETE FROM explainability_runs WHERE run_id = ?`, which cascades to the run's events. -/
def deleteRunRow (s : SqliteState) (runId : String) : SqliteState where
  runs := s.runs.filter fun row => row.runId ≠ runId
  events := s.events.filter fun row => row.runId ≠ runId

/-- Run a transaction: the tables change only when its body commits. -/
def transaction {α : Type} (s : SqliteState) (operation : String)
    (body : Except SqliteStoreFailure (α × SqliteState)) :
    Except ExplainabilityStoreError α × SqliteState :=
  match body with
  | .error failure => (.error (failure.report operation), s)
  | .ok (a, s') => (.ok a, s')

/-! ### Mutations -/

/-- `insert_run`. -/
def insertRun (s : SqliteState) (run : ExplainabilityRun) :
    Except SqliteStoreFailure (Unit × SqliteState) :=
  if s.runExists run.runId.asStr then .error (.store (.runAlreadyExists run.runId))
  else
    match s.insertRunRow (newRunRow run) with
    | .ok s' => .ok ((), s')
    | .error error =>
      if s.runExists run.runId.asStr then .error (.store (.runAlreadyExists run.runId))
      else .error (.backend error)

/-- `create_run`. -/
def createRun (s : SqliteState) (run : ExplainabilityRun) :
    Except ExplainabilityStoreError Unit × SqliteState :=
  match validateCreateRun run with
  | .error e => (.error e, s)
  | .ok () => s.transaction "create explainability run" (s.insertRun run)

/-- The sequence check of `append_prepared_events`. -/
def checkSequences (runId : ExplainabilityRunId) (nextSequence : ℕ) :
    List PreparedEvent → Except SqliteStoreFailure ℕ
  | [] => .ok nextSequence
  | item :: rest =>
    match checkedAdd nextSequence 1 with
    | none => .error (.store (.sequenceOverflow runId))
    | some expected =>
      if item.sequence ≠ expected then
        .error (.store (.sequenceConflict runId expected item.sequence))
      else checkSequences runId expected rest

/-- The insertions of `append_prepared_events`. -/
def insertEventRows (s : SqliteState) : List PreparedEvent →
    Except SqliteStoreBackendError SqliteState
  | [] => .ok s
  | item :: rest => do
    let s ← s.insertEventRow item.row
    s.insertEventRows rest

/-- `append_prepared_events`. -/
def appendPreparedEvents (s : SqliteState) (runId : ExplainabilityRunId)
    (prepared : List PreparedEvent) : Except SqliteStoreFailure (Unit × SqliteState) :=
  match s.runRow runId.asStr with
  | none => .error (.store (.runNotFound runId))
  | some row => do
    let status ← liftBackend (ExplainabilityRunStatus.fromSqlText row.status)
    let startedAt ← liftBackend (datetimeFromSqlText row.startedAt)
    let completedAt ← liftBackend (optionalDatetimeFromSqlText row.completedAt)
    liftBackend (validatePersistedRunLifecycle status startedAt completedAt)
    if isTerminal status then .error (.store (.runAlreadyTerminal runId))
    else do
      let eventCount ← liftBackend (sqliteIntegerToU64 row.eventCount "event_count")
      let finalCount ← checkSequences runId eventCount prepared
      let finalCountSqlite ← liftBackend (u64ToSqliteInteger finalCount "event_count")
      let s ← liftBackend (s.insertEventRows prepared)
      let (updated, s) := s.updateRuns
        (fun other => other.runId = runId.asStr ∧ other.eventCount = row.eventCount)
        (fun other => { other with eventCount := finalCountSqlite })
      if updated ≠ 1 then .error (.backend .invalidPersistedValue) else .ok ((), s)

/-- `append_events`. -/
def appendEvents (s : SqliteState) (events : List (ExplainabilityEnvelope ε)) :
    Except ExplainabilityStoreError Unit × SqliteState :=
  match events with
  | [] => (.ok (), s)
  | first :: _ =>
    let firstRun := first.record.runId
    match events.find? (fun envelope => envelope.record.runId ≠ firstRun) with
    | some mixed => (.error (.mixedRunBatch firstRun mixed.record.runId), s)
    | none =>
      s.transaction "append explainability events" do
        let prepared ← liftBackend (events.mapM (prepareEvent codec))
        s.appendPreparedEvents firstRun prepared

/-- The transaction of `complete_run`. -/
def completeRunRow (s : SqliteState) (completion : RunCompletion) :
    Except SqliteStoreFailure (Unit × SqliteState) :=
  match s.runRow completion.runId.asStr with
  | none => .error (.store (.runNotFound completion.runId))
  | some row => do
    let storedStatus ← liftBackend (ExplainabilityRunStatus.fromSqlText row.status)
    let startedAt ← liftBackend (datetimeFromSqlText row.startedAt)
    let storedCompletedAt ← liftBackend (optionalDatetimeFromSqlText row.completedAt)
    liftBackend (validatePersistedRunLifecycle storedStatus startedAt storedCompletedAt)
    if completion.completedAt < startedAt then
      .error (.store (.invalidCompletionTime completion.runId completion.completedAt startedAt))
    else if storedCompletedAt.isSome ∨ isTerminal storedStatus then
      if storedStatus = completion.status ∧ storedCompletedAt = some completion.completedAt then
        -- the transaction is dropped without a commit
        .ok ((), s)
      else .error (.store (.completionConflict completion.runId))
    else
      let (updated, s) := s.updateRuns (fun other => other.runId = completion.runId.asStr)
        (fun other =>
          { other with
            status := completion.status.toSqlText
            completedAt := some (datetimeToSqlText completion.completedAt) })
      if updated ≠ 1 then .error (.backend .invalidPersistedValue) else .ok ((), s)

/-- `complete_run`. -/
def completeRun (s : SqliteState) (completion : RunCompletion) :
    Except ExplainabilityStoreError Unit × SqliteState :=
  if !isTerminal completion.status then
    (.error (.invalidCompletionStatus completion.status), s)
  else s.transaction "complete explainability run" (s.completeRunRow completion)

/-- `delete_run`. -/
def deleteRun (s : SqliteState) (id : ExplainabilityRunId) :
    Except ExplainabilityStoreError Unit × SqliteState :=
  s.transaction "delete explainability run" (.ok ((), s.deleteRunRow id.asStr))

/-! ### Reads -/

/-- Report the result of a read. -/
def read {α : Type} (operation : String) (body : Except SqliteStoreFailure α) :
    Except ExplainabilityStoreError α :=
  body.mapError (SqliteStoreFailure.report operation)

/-- `get_run`. -/
def getRun (s : SqliteState) (id : ExplainabilityRunId) :
    Except ExplainabilityStoreError (Option ExplainabilityRun) :=
  read "read explainability run" (liftBackend ((s.runRow id.asStr).mapM runFromRow))

/-- The conditions of a run history query, joined by `AND`. -/
def matchesQueryRow (query : RunQuery) (row : RunRow) : Bool :=
  query.kind.all (fun kind => row.kind = kind.toSqlText) &&
  query.status.all (fun status => row.status = status.toSqlText) &&
  query.queryMethod.all (fun method => row.queryMethod = some method.toSqlText) &&
  query.before.all (fun cursor =>
    row.startedAt < datetimeToSqlText cursor.startedAt ∨
      row.startedAt = datetimeToSqlText cursor.startedAt ∧ row.runId < cursor.runId.asStr)

/-- `ORDER BY started_at DESC, run_id DESC`. -/
def historyRowOrder (left right : RunRow) : Prop :=
  right.startedAt < left.startedAt ∨
    right.startedAt = left.startedAt ∧ right.runId ≤ left.runId

instance : DecidableRel historyRowOrder := fun left right =>
  inferInstanceAs (Decidable (right.startedAt < left.startedAt ∨
    right.startedAt = left.startedAt ∧ right.runId ≤ left.runId))

/-- `list_runs`. -/
def listRuns (s : SqliteState) (query : RunQuery) :
    Except ExplainabilityStoreError (List ExplainabilityRun) :=
  match validateLimit query.limit 1 maxRunQueryLimit "run history" with
  | .error e => .error e
  | .ok () =>
    read "list explainability runs" (liftBackend
      ((((s.runs.filter (matchesQueryRow query)).insertionSort historyRowOrder).take
        query.limit).mapM runFromRow))

/-- `SELECT … FROM explainability_events WHERE run_id = ? AND sequence > ? ORDER BY sequence ASC
LIMIT ?`. -/
def eventRows (s : SqliteState) (runId : String) (after : ℤ) (limit : ℕ) : List EventRow :=
  ((s.events.filter fun row => row.runId = runId ∧ after < row.sequence).insertionSort
    fun left right => left.sequence ≤ right.sequence).take limit

/-- `load_events`. -/
def loadEvents (s : SqliteState) (id : ExplainabilityRunId) (query : EventQuery) :
    Except ExplainabilityStoreError (List (ExplainabilityEnvelope ε)) :=
  match validateLimit query.limit 1 maxEventQueryLimit "event replay" with
  | .error e => .error e
  | .ok () =>
    let after := query.afterSequence.getD 0
    read "load explainability events" <|
      if s.runExists id.asStr then
        -- stored sequences fit `i64`, so a larger bound matches nothing
        if after ≤ i64Max then
          liftBackend ((s.eventRows id.asStr after query.limit).mapM (envelopeFromRow codec))
        else .ok []
      else .error (.store (.runNotFound id))

/-- Answer one call. -/
def call (s : SqliteState) : StoreCall ε → StoreResult ε × SqliteState
  | .createRun run => (s.createRun run).map (Except.map fun _ => .done) id
  | .appendEvents events => (s.appendEvents codec events).map (Except.map fun _ => .done) id
  | .completeRun completion => (s.completeRun completion).map (Except.map fun _ => .done) id
  | .getRun runId => ((s.getRun runId).map .run, s)
  | .listRuns query => ((s.listRuns query).map .runs, s)
  | .loadEvents runId query => ((s.loadEvents codec runId query).map .events, s)
  | .deleteRun runId => (s.deleteRun runId).map (Except.map fun _ => .done) id

end SqliteState

/-- The SQLite store as a machine. -/
def sqliteExplainabilityStore : Machine SqliteState (StoreCall ε) (StoreResult ε) where
  init := .new
  step := SqliteState.call codec

end GraphLoom.Explainability
