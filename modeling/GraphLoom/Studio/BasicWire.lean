import GraphLoom.Query.Basic.Explainability
import GraphLoom.Studio.SemanticBasic

/-!
# Records of a Basic query on their way to the explorer

The server writes a record as a document and the explorer parses it.  An event is an object with its
type among its fields, names are in snake case, and a field without a value is left out.  Numbers
become doubles, so that only those up to `Number.MAX_SAFE_INTEGER` are read back as integers.
-/

namespace GraphLoom.Studio.BasicWire

open Foundation Js GraphLoom.Explainability
open Query.Basic (BasicRecord ExplainabilityContentMode)
open Query.Local (SelectionReason ContextSectionKind ExplainabilityRecordType)

/-! ### Names -/

def selectionReason : SelectionReason → String
  | .annResult => "ann_result"
  | .explicitlyIncluded => "explicitly_included"
  | .explicitlyExcluded => "explicitly_excluded"
  | .graphExpansion => "graph_expansion"
  | .communityMembership => "community_membership"
  | .sourceReference => "source_reference"
  | .rankThreshold => "rank_threshold"
  | .tokenBudget => "token_budget"
  | .staleReference => "stale_reference"
  | .missingRecord => "missing_record"

def contextSectionKind : ContextSectionKind → String
  | .conversationHistory => "conversation_history"
  | .communityReports => "community_reports"
  | .entities => "entities"
  | .relationships => "relationships"
  | .covariates => "covariates"
  | .sources => "sources"

def recordType : ExplainabilityRecordType → String
  | .entity => "entity"
  | .relationship => "relationship"
  | .covariate => "covariate"
  | .communityReport => "community_report"
  | .textUnit => "text_unit"

def runKind : ExplainabilityRunKind → String
  | .index => "index"
  | .update => "update"
  | .query => "query"
  | .promptTune => "prompt_tune"

def queryMethod : ExplainabilityQueryMethod → String
  | .basic => "basic"
  | .local => "local"
  | .global => "global"
  | .drift => "drift"

def contentMode : ExplainabilityContentMode → String
  | .metadata => "metadata"
  | .content => "content"
  | .debug => "debug"

def skipReason : Query.Basic.BasicRetrievalSkipReason → String
  | .emptyQuery => "empty_query"

/-! ### Documents -/

/-- A field that is left out where it has no value. -/
def optionalField (name : String) (value : Option Value) : List (String × Value) :=
  (value.map fun value => (name, value)).toList

def candidateValue (candidate : Query.Basic.ExplainabilityCandidate) : Value :=
  .object ([("id", .string candidate.id)] ++
    optionalField "short_id" (candidate.shortId.map .string) ++
    [("record_type", .string (recordType candidate.recordType))] ++
    optionalField "score"
      (candidate.score.map fun score => .number (.finite (doubleValue score.value))) ++
    optionalField "rank" (candidate.rank.map .ofNat) ++
    [("selected", .boolean candidate.selected)] ++
    optionalField "reason" (candidate.reason.map fun reason => .string (selectionReason reason)))

def sectionBudgetValue (budget : ContextSectionKind × ℕ) : Value :=
  .object [("section", .string (contextSectionKind budget.1)), ("token_budget", .ofNat budget.2)]

def contextSectionValue (contextSection : Query.Basic.ExplainabilityContextSection) : Value :=
  .object [("section", .string (contextSectionKind contextSection.kind)),
    ("token_budget", .ofNat contextSection.tokenBudget),
    ("tokens_used", .ofNat contextSection.tokensUsed),
    ("candidate_count", .ofNat contextSection.candidateCount),
    ("selected_count", .ofNat contextSection.selectedCount),
    ("truncated", .boolean contextSection.truncated),
    ("selected_record_ids", .array (contextSection.selectedRecordIds.map .string))]

/-- The type of an event and its other fields. -/
def eventFields : Query.Basic.ExplainabilityEvent → String × List (String × Value)
  | .runStarted kind mode =>
    ("run_started", [("kind", .string (runKind kind)), ("content_mode", .string (contentMode mode))])
  | .runCompleted elapsedMs => ("run_completed", [("elapsed_ms", .ofNat elapsedMs)])
  | .runFailed errorKind message =>
    ("run_failed", [("error_kind", .string errorKind), ("message", .string message)])
  | .queryStarted method query =>
    ("query_started",
      ("method", .string (queryMethod method)) :: optionalField "query" (query.map .string))
  | .embeddingStarted modelId input =>
    ("embedding_started", ("model_id", .string modelId) :: optionalField "input" (input.map .string))
  | .embeddingCompleted modelId promptTokens dimensions =>
    ("embedding_completed", [("model_id", .string modelId),
      ("prompt_tokens", .ofNat promptTokens), ("dimensions", .ofNat dimensions)])
  | .basicRetrievalSkipped reason =>
    ("basic_retrieval_skipped", [("reason", .string (skipReason reason))])
  | .candidatesRetrieved type candidates =>
    ("candidates_retrieved", [("record_type", .string (recordType type)),
      ("candidates", .array (candidates.map candidateValue))])
  | .candidatesFiltered type candidates =>
    ("candidates_filtered", [("record_type", .string (recordType type)),
      ("candidates", .array (candidates.map candidateValue))])
  | .contextBudgetAllocated totalTokenBudget sections =>
    ("context_budget_allocated", [("total_token_budget", .ofNat totalTokenBudget),
      ("sections", .array (sections.map sectionBudgetValue))])
  | .contextSectionBuilt contextSection =>
    ("context_section_built", [("section", contextSectionValue contextSection)])
  | .contextCompleted tokensUsed context =>
    ("context_completed",
      ("tokens_used", .ofNat tokensUsed) :: optionalField "context" (context.map .string))
  | .llmRequestStarted modelId promptTokens prompt =>
    ("llm_request_started", [("model_id", .string modelId), ("prompt_tokens", .ofNat promptTokens)] ++
      optionalField "prompt" (prompt.map .string))
  | .llmRequestCompleted modelId inputTokens outputTokens elapsedMs response =>
    ("llm_request_completed", [("model_id", .string modelId), ("input_tokens", .ofNat inputTokens),
      ("output_tokens", .ofNat outputTokens), ("elapsed_ms", .ofNat elapsedMs)] ++
      optionalField "response" (response.map .string))

def eventValue (event : Query.Basic.ExplainabilityEvent) : Value :=
  .object (("type", .string (eventFields event).1) :: (eventFields event).2)

/-- `timestampText` is the text of a time in a document. -/
def wireRecord (timestampText : DateTime → String) (record : BasicRecord) :
    ExplainabilityRecord where
  runId := record.runId.asStr
  timestamp := timestampText record.timestamp
  spanId := record.spanId.asStr
  parentSpanId := record.parentSpanId.map (·.asStr)
  event := eventValue record.event

/-! ### What the explorer shows of it -/

def shownCandidate (candidate : Query.Basic.ExplainabilityCandidate) :
    SemanticBasic.ExplainabilityCandidate where
  id := candidate.id
  recordType := recordType candidate.recordType
  selected := candidate.selected
  shortId := candidate.shortId
  score := candidate.score.map fun score => doubleValue score.value
  rank := candidate.rank.map (Nat.cast : ℕ → ℤ)
  reason := candidate.reason.map selectionReason

def shownSection (contextSection : Query.Basic.ExplainabilityContextSection) :
    SemanticBasic.ExplainabilityContextSection where
  sectionName := contextSectionKind contextSection.kind
  tokenBudget := contextSection.tokenBudget
  tokensUsed := contextSection.tokensUsed
  candidateCount := contextSection.candidateCount
  selectedCount := contextSection.selectedCount
  truncated := contextSection.truncated
  selectedRecordIds := contextSection.selectedRecordIds

/-- The numbers in an event below the root of a run.  The ranks of candidates are left out: they are
`u32` and never too large. -/
def figures : Query.Basic.ExplainabilityEvent → List ℕ
  | .embeddingCompleted _ promptTokens dimensions => [promptTokens, dimensions]
  | .contextBudgetAllocated totalTokenBudget sections => totalTokenBudget :: sections.map (·.2)
  | .contextSectionBuilt contextSection =>
    [contextSection.tokenBudget, contextSection.tokensUsed, contextSection.candidateCount,
      contextSection.selectedCount]
  | .contextCompleted tokensUsed _ => [tokensUsed]
  | .llmRequestStarted _ promptTokens _ => [promptTokens]
  | .llmRequestCompleted _ inputTokens outputTokens elapsedMs _ =>
    [inputTokens, outputTokens, elapsedMs]
  | _ => []

/-- Every number in the event is a safe integer. -/
def Safe (event : Query.Basic.ExplainabilityEvent) : Prop :=
  ∀ n ∈ figures event, (n : ℤ) ≤ maxSafeInteger

instance (event : Query.Basic.ExplainabilityEvent) : Decidable (Safe event) :=
  inferInstanceAs (Decidable (∀ n ∈ figures event, (n : ℤ) ≤ maxSafeInteger))

end GraphLoom.Studio.BasicWire
