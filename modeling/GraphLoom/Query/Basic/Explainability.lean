import GraphLoom.Explainability.Record
import GraphLoom.Query.Local.Explainability

/-!
# The session of a Basic query

The events a Basic query emits and the session it emits them in: each event becomes a record with
the time at which it occurred, which the sink accepts or rejects.  What could not be delivered or
represented is counted, and the run ends as completed only if this count is zero.
-/

namespace GraphLoom.Query.Basic

open GraphLoom.Explainability Foundation
open Local (SelectionReason ContextSectionKind ExplainabilityRecordType)

/-! ### Events -/

inductive ExplainabilityContentMode where
  | metadata
  | content
  | debug
deriving DecidableEq, Repr

def ExplainabilityContentMode.includesContent : ExplainabilityContentMode → Bool
  | metadata => false
  | content | debug => true

/-- A finite score. -/
structure ExplainabilityScore where
  value : F64
  finite : value.isFinite = true
deriving DecidableEq

def ExplainabilityScore.tryFrom (value : F64) : Option ExplainabilityScore :=
  if h : value.isFinite = true then some ⟨value, h⟩ else none

/-- A candidate; a Basic query gives it no title, no source and no expansion depth. -/
structure ExplainabilityCandidate where
  id : String
  shortId : Option String
  recordType : ExplainabilityRecordType
  score : Option ExplainabilityScore
  rank : Option ℕ
  selected : Bool
  reason : Option SelectionReason
deriving DecidableEq

def ExplainabilityCandidate.new (id : String) (recordType : ExplainabilityRecordType) :
    ExplainabilityCandidate :=
  ⟨id, none, recordType, none, none, false, none⟩

structure ExplainabilityContextSection where
  kind : ContextSectionKind
  tokenBudget : ℕ
  tokensUsed : ℕ
  candidateCount : ℕ
  selectedCount : ℕ
  truncated : Bool
  selectedRecordIds : List String
deriving DecidableEq, Repr

inductive BasicRetrievalSkipReason where
  | emptyQuery
deriving DecidableEq, Repr

/-- The events of a Basic query.  Numbers are `u64`, dimensions and ranks are `u32`. -/
inductive ExplainabilityEvent where
  | runStarted (kind : ExplainabilityRunKind) (contentMode : ExplainabilityContentMode)
  | runCompleted (elapsedMs : ℕ)
  | runFailed (errorKind message : String)
  | queryStarted (method : ExplainabilityQueryMethod) (query : Option String)
  | embeddingStarted (modelId : String) (input : Option String)
  | embeddingCompleted (modelId : String) (promptTokens dimensions : ℕ)
  | basicRetrievalSkipped (reason : BasicRetrievalSkipReason)
  | candidatesRetrieved (recordType : ExplainabilityRecordType)
      (candidates : List ExplainabilityCandidate)
  | candidatesFiltered (recordType : ExplainabilityRecordType)
      (candidates : List ExplainabilityCandidate)
  | contextBudgetAllocated (totalTokenBudget : ℕ) (sections : List (ContextSectionKind × ℕ))
  | contextSectionBuilt (contextSection : ExplainabilityContextSection)
  | contextCompleted (tokensUsed : ℕ) (context : Option String)
  | llmRequestStarted (modelId : String) (promptTokens : ℕ) (prompt : Option String)
  | llmRequestCompleted (modelId : String) (inputTokens outputTokens elapsedMs : ℕ)
      (response : Option String)
deriving DecidableEq

/-- A collection of candidates is of one category; the error names the first that is not. -/
def validateCandidateTypes (expected : ExplainabilityRecordType)
    (candidates : List ExplainabilityCandidate) : Except (ExplainabilityRecordType × ℕ) Unit :=
  match candidates.zipIdx.find? fun candidate => candidate.1.recordType ≠ expected with
  | some (candidate, index) => .error (candidate.recordType, index)
  | none => .ok ()

/-- `CandidatesRetrieved::try_new` and `CandidatesFiltered::try_new`. -/
def candidatesTryNew
    (event : ExplainabilityRecordType → List ExplainabilityCandidate → ExplainabilityEvent)
    (recordType : ExplainabilityRecordType) (candidates : List ExplainabilityCandidate) :
    Except (ExplainabilityRecordType × ℕ) ExplainabilityEvent := do
  validateCandidateTypes recordType candidates
  return event recordType candidates

abbrev BasicRecord := ExplainabilityRecord ExplainabilityEvent

/-! ### The session -/

/-- The identity of one query, its sink and what its clock says.  Each span is generated anew. -/
structure BasicQueryExplainability where
  runId : ExplainabilityRunId
  contentMode : ExplainabilityContentMode
  -- whether the sink accepts a record after those it has accepted
  sink : List BasicRecord → BasicRecord → Bool
  rootSpan : ExplainabilitySpanId
  embedding : ExplainabilitySpanId
  retrieval : ExplainabilitySpanId
  context : ExplainabilitySpanId
  llm : ExplainabilitySpanId
  fresh : [rootSpan, embedding, retrieval, context, llm].Nodup
  -- `Utc::now` at each emission
  now : ℕ → DateTime
  -- the milliseconds of the run and of the model's request when they end
  runElapsed : ℕ
  llmElapsed : ℕ

/-- What a session has delivered. -/
structure Session where
  records : List BasicRecord
  emissions : ℕ
  deliveryFailureCount : ℕ
  terminalStarted : Bool

def Session.new : Session := ⟨[], 0, 0, false⟩

namespace BasicQueryExplainability

variable (session : BasicQueryExplainability)

def content (value : String) : Option String :=
  if session.contentMode.includesContent then some value else none

def emit (spanId : ExplainabilitySpanId) (parentSpanId : Option ExplainabilitySpanId)
    (event : ExplainabilityEvent) (s : Session) : Session :=
  let record : BasicRecord := ⟨session.runId, session.now s.emissions, spanId, parentSpanId, event⟩
  let s := { s with emissions := s.emissions + 1 }
  if session.sink s.records record then { s with records := s.records ++ [record] }
  else { s with deliveryFailureCount := s.deliveryFailureCount + 1 }

def markSidecarFailure (s : Session) : Session :=
  { s with deliveryFailureCount := s.deliveryFailureCount + 1 }

def emitContract (spanId : ExplainabilitySpanId) (parentSpanId : Option ExplainabilitySpanId)
    (event : Except (ExplainabilityRecordType × ℕ) ExplainabilityEvent) (s : Session) : Session :=
  match event with
  | .ok event => session.emit spanId parentSpanId event s
  | .error _ => markSidecarFailure s

/-- A conversion to an integer type with a largest value; a failure is marked. -/
def convert (largest value : ℕ) (s : Session) : Option ℕ × Session :=
  if value ≤ largest then (some value, s) else (none, markSidecarFailure s)

def usizeToU64 (value : ℕ) (s : Session) : Option ℕ × Session := convert u64Max value s

def usizeToU32 (value : ℕ) (s : Session) : Option ℕ × Session := convert u32Max value s

/-- `duration_millis`, of the milliseconds of a duration. -/
def durationMillis (millis : ℕ) (s : Session) : Option ℕ × Session := convert u64Max millis s

/-- The first two records of a query. -/
def start (query : String) (s : Session) : Session :=
  let s := session.emit session.rootSpan none (.runStarted .query session.contentMode) s
  session.emit session.rootSpan none (.queryStarted .basic (session.content query)) s

def deliveryFailedEvent : ExplainabilityEvent :=
  .runFailed "explainability_delivery"
    "One or more explainability records could not be delivered."

/-- Only the first end of a run counts. -/
def beginTerminal (s : Session) : Option Session :=
  if s.terminalStarted then none else some { s with terminalStarted := true }

def finishSuccess (s : Session) : Session :=
  match beginTerminal s with
  | none => s
  | some s =>
    let (elapsedMs, s) := durationMillis session.runElapsed s
    let event :=
      if s.deliveryFailureCount = 0 then elapsedMs.map .runCompleted else some deliveryFailedEvent
    session.emit session.rootSpan none (event.getD deliveryFailedEvent) s

def finishFailure (errorKind : String) (s : Session) : Session :=
  match beginTerminal s with
  | none => s
  | some s =>
    session.emit session.rootSpan none (.runFailed errorKind "Basic query execution failed.") s

/-- The stable category of an error. -/
def queryErrorKind : QueryError → String
  | .invalidQueryConfig .. => "invalid_query_config"
  | .missingQueryTable .. => "missing_query_table"
  | .invalidQueryTable .. => "invalid_query_table"
  | .missingVectorIndex .. => "missing_vector_index"
  | .invalidVectorIndex .. => "invalid_vector_index"
  | .queryPrompt .. => "query_prompt"
  | .queryEmbedding .. => "query_embedding"
  | .queryCompletion .. => "query_completion"
  | .queryParse .. => "query_parse"
  | .queryContext .. => "query_context"
  | .queryRuntime .. => "query_runtime"

def finishQueryError (error : QueryError) (s : Session) : Session :=
  session.finishFailure (queryErrorKind error) s

def finishStreamEnded (s : Session) : Session := session.finishFailure "query_completion" s

end BasicQueryExplainability

end GraphLoom.Query.Basic
