import GraphLoom.Studio.Envelope

/-!
# The Basic timeline

`buildBasicSemanticTimeline` reads the envelopes of a Basic run and shows what the run did as three
steps: the retrieval of text units, the assembly of the context and the answer.  It chooses one
lifecycle for each of them, looking back from the last completion, and claims the sequences of the
events of these lifecycles; the other envelopes are left for the diagnostics.
-/

namespace GraphLoom.Studio.SemanticBasic

open Foundation

/-! ### The events -/

structure ExplainabilityCandidate where
  id : String
  recordType : String
  selected : Bool
  shortId : Option String
  score : Option ℚ
  rank : Option ℤ
  reason : Option String
deriving DecidableEq, Repr

structure ExplainabilityContextSection where
  sectionName : String
  tokenBudget : ℤ
  tokensUsed : ℤ
  candidateCount : ℤ
  selectedCount : ℤ
  truncated : Bool
  selectedRecordIds : List String
deriving DecidableEq, Repr

structure EmbeddingStartedEvent where
  modelId : String
  input : Option String
deriving DecidableEq, Repr

structure EmbeddingCompletedEvent where
  modelId : String
  promptTokens : ℤ
  dimensions : ℤ
deriving DecidableEq, Repr

/-- The events `candidates_retrieved` and `candidates_filtered`. -/
structure CandidatesEvent where
  recordType : String
  candidates : List ExplainabilityCandidate
deriving DecidableEq, Repr

inductive BasicRetrievalSkipReason where
  | emptyQuery
deriving DecidableEq, Repr

structure BasicRetrievalSkippedEvent where
  reason : BasicRetrievalSkipReason
deriving DecidableEq, Repr

structure ContextBudgetAllocatedEvent where
  totalTokenBudget : ℤ
  sections : List (String × ℤ)
deriving DecidableEq, Repr

structure ContextSectionBuiltEvent where
  contextSection : ExplainabilityContextSection
deriving DecidableEq, Repr

structure ContextCompletedEvent where
  tokensUsed : ℤ
  context : Option String
deriving DecidableEq, Repr

structure LlmRequestStartedEvent where
  modelId : String
  promptTokens : ℤ
  prompt : Option String
deriving DecidableEq, Repr

structure LlmRequestCompletedEvent where
  modelId : String
  inputTokens : ℤ
  outputTokens : ℤ
  elapsedMs : ℤ
  response : Option String
deriving DecidableEq, Repr

/-! ### The guards -/

/-- `value === undefined` or a value that passes a guard. -/
def optional {α : Type} (guard : Js.Value → Option α) : Js.Value → Option (Option α)
  | .undefined => some none
  | value => (guard value).map some

def isEmbeddingStarted : TypeGuard EmbeddingStartedEvent where
  type := "embedding_started"
  fields event := do
    let modelId ← (event.get "model_id").string?
    let input ← (event.get "input").optionalString?
    return { modelId, input }

def isEmbeddingCompleted : TypeGuard EmbeddingCompletedEvent where
  type := "embedding_completed"
  fields event := do
    let modelId ← (event.get "model_id").string?
    let promptTokens ← (event.get "prompt_tokens").nonNegativeInteger?
    let dimensions ← (event.get "dimensions").nonNegativeInteger?
    return { modelId, promptTokens, dimensions }

def isCandidate (candidate : Js.Value) : Option ExplainabilityCandidate := do
  guard candidate.isObject
  let id ← (candidate.get "id").string?
  let recordType ← (candidate.get "record_type").string?
  let selected ← (candidate.get "selected").boolean?
  let shortId ← (candidate.get "short_id").optionalString?
  let score ← optional Js.Value.finiteNumber? (candidate.get "score")
  let rank ← optional Js.Value.positiveInteger? (candidate.get "rank")
  let reason ← (candidate.get "reason").optionalString?
  return { id, recordType, selected, shortId, score, rank, reason }

def candidatesGuard (type : String) : TypeGuard CandidatesEvent where
  type := type
  fields event := do
    let recordType ← (event.get "record_type").string?
    let candidates ← (event.get "candidates").arrayOf? isCandidate
    return { recordType, candidates }

def isCandidatesRetrieved : TypeGuard CandidatesEvent := candidatesGuard "candidates_retrieved"

def isCandidatesFiltered : TypeGuard CandidatesEvent := candidatesGuard "candidates_filtered"

def isBasicRetrievalSkipped : TypeGuard BasicRetrievalSkippedEvent where
  type := "basic_retrieval_skipped"
  fields event := do
    guard ((event.get "reason").string? = some "empty_query")
    return { reason := .emptyQuery }

def isSectionBudget (value : Js.Value) : Option (String × ℤ) := do
  guard value.isObject
  let sectionName ← (value.get "section").string?
  let tokenBudget ← (value.get "token_budget").nonNegativeInteger?
  return (sectionName, tokenBudget)

def isContextBudgetAllocated : TypeGuard ContextBudgetAllocatedEvent where
  type := "context_budget_allocated"
  fields event := do
    let totalTokenBudget ← (event.get "total_token_budget").nonNegativeInteger?
    let sections ← (event.get "sections").arrayOf? isSectionBudget
    return { totalTokenBudget, sections }

def isContextSection (value : Js.Value) : Option ExplainabilityContextSection := do
  guard value.isObject
  let sectionName ← (value.get "section").string?
  let tokenBudget ← (value.get "token_budget").nonNegativeInteger?
  let tokensUsed ← (value.get "tokens_used").nonNegativeInteger?
  let candidateCount ← (value.get "candidate_count").nonNegativeInteger?
  let selectedCount ← (value.get "selected_count").nonNegativeInteger?
  let truncated ← (value.get "truncated").boolean?
  let selectedRecordIds ← (value.get "selected_record_ids").arrayOf? Js.Value.string?
  return ⟨sectionName, tokenBudget, tokensUsed, candidateCount, selectedCount, truncated,
    selectedRecordIds⟩

def isContextSectionBuilt : TypeGuard ContextSectionBuiltEvent where
  type := "context_section_built"
  fields event := do
    let contextSection ← isContextSection (event.get "section")
    return { contextSection }

def isContextCompleted : TypeGuard ContextCompletedEvent where
  type := "context_completed"
  fields event := do
    let tokensUsed ← (event.get "tokens_used").nonNegativeInteger?
    let context ← (event.get "context").optionalString?
    return { tokensUsed, context }

def isLlmRequestStarted : TypeGuard LlmRequestStartedEvent where
  type := "llm_request_started"
  fields event := do
    let modelId ← (event.get "model_id").string?
    let promptTokens ← (event.get "prompt_tokens").nonNegativeInteger?
    let prompt ← (event.get "prompt").optionalString?
    return { modelId, promptTokens, prompt }

def isLlmRequestCompleted : TypeGuard LlmRequestCompletedEvent where
  type := "llm_request_completed"
  fields event := do
    let modelId ← (event.get "model_id").string?
    let inputTokens ← (event.get "input_tokens").nonNegativeInteger?
    let outputTokens ← (event.get "output_tokens").nonNegativeInteger?
    let elapsedMs ← (event.get "elapsed_ms").nonNegativeInteger?
    let response ← (event.get "response").optionalString?
    return { modelId, inputTokens, outputTokens, elapsedMs, response }

/-! ### The views -/

inductive BasicRetrievalStatus where
  | waiting
  | embedding
  | embeddingReady
  | retrieved
  | skipped
deriving DecidableEq, Repr

inductive BasicContextStatus where
  | waiting
  | assembling
  | completed
deriving DecidableEq, Repr

inductive BasicAnswerStatus where
  | waiting
  | generating
  | generated
deriving DecidableEq, Repr

structure BasicRetrievalSummary where
  status : BasicRetrievalStatus
  skippedReason : Option BasicRetrievalSkipReason
  model : Option String
  promptTokens : Option ℤ
  dimensions : Option ℤ
  elapsedMs : Option ℚ
  candidates : List ExplainabilityCandidate
deriving DecidableEq, Repr

structure BasicContextSummary where
  status : BasicContextStatus
  candidates : List ExplainabilityCandidate
  candidateCount : Option ℤ
  selectedCount : Option ℤ
  tokenBudgetExcludedCount : Option ℕ
  tokenBudget : Option ℤ
  budgetedTokensUsed : Option ℤ
  truncated : Option Bool
  selectedRecordIds : List String
  exactContext : Option String
deriving DecidableEq, Repr

structure BasicAnswerSummary where
  status : BasicAnswerStatus
  calls : ℕ
  model : Option String
  inputTokens : Option ℤ
  outputTokens : Option ℤ
  elapsedMs : Option ℤ
  exactPrompt : Option String
  rawResponse : Option String
deriving DecidableEq, Repr

inductive BasicSemanticStep where
  | textRetrieval (rawEvents : List ExplainabilityEnvelope) (summary : BasicRetrievalSummary)
  | basicContextAssembly (rawEvents : List ExplainabilityEnvelope) (summary : BasicContextSummary)
  | basicAnswerGeneration (rawEvents : List ExplainabilityEnvelope) (summary : BasicAnswerSummary)

def BasicSemanticStep.rawEvents : BasicSemanticStep → List ExplainabilityEnvelope
  | textRetrieval rawEvents _ => rawEvents
  | basicContextAssembly rawEvents _ => rawEvents
  | basicAnswerGeneration rawEvents _ => rawEvents

structure BasicSemanticTimelineModel where
  steps : List BasicSemanticStep
  diagnosticEvents : List ExplainabilityEnvelope

/-! ### The lifecycles -/

abbrev Budgets := List (TypedEnvelope isContextBudgetAllocated)

abbrev Sections := List (TypedEnvelope isContextSectionBuilt)

abbrev Contexts := List (TypedEnvelope isContextCompleted)

abbrev Retrieved := List (TypedEnvelope isCandidatesRetrieved)

abbrev Filtered := List (TypedEnvelope isCandidatesFiltered)

abbrev Skipped := List (TypedEnvelope isBasicRetrievalSkipped)

/-- The decisions agree with the counts and the identifiers of a section. -/
def matchesContextSection (candidates : List ExplainabilityCandidate)
    (contextSection : ExplainabilityContextSection) : Bool :=
  let selectedIds := (candidates.filter (·.selected)).map (·.id)
  (candidates.length : ℤ) = contextSection.candidateCount &&
    (selectedIds.length : ℤ) = contextSection.selectedCount &&
    selectedIds.length = contextSection.selectedRecordIds.length &&
    selectedIds.zipIdx.all fun (id, index) => contextSection.selectedRecordIds[index]? = some id

def hasCoherentRetrieval (contextSection : TypedEnvelope isContextSectionBuilt)
    (filtered : Filtered) (skipped : Skipped) : Bool :=
  let evidence := contextSection.event.contextSection
  let hasFilteredEvidence := filtered.any fun event =>
    event.sequence ≤ contextSection.sequence && matchesContextSection event.event.candidates evidence
  hasFilteredEvidence ||
    (evidence.candidateCount = 0 && skipped.any fun event =>
      event.sequence ≤ contextSection.sequence)

structure ContextLifecycle where
  budget : Option (TypedEnvelope isContextBudgetAllocated) := none
  contextSection : Option (TypedEnvelope isContextSectionBuilt) := none
  completed : Option (TypedEnvelope isContextCompleted) := none

/-- The raw events are the budget, the section and the completion, as far as they were found. -/
def ContextLifecycle.rawEvents (lifecycle : ContextLifecycle) : List ExplainabilityEnvelope :=
  Js.sortBy (·.sequence) ((lifecycle.budget.map (·.envelope)).toList ++
    (lifecycle.contextSection.map (·.envelope)).toList ++
    (lifecycle.completed.map (·.envelope)).toList)

/-- The last budget of the span of a section that does not come after it. -/
def budgetOf (budgets : Budgets) (contextSection : TypedEnvelope isContextSectionBuilt) :
    Option (TypedEnvelope isContextBudgetAllocated) :=
  last (budgets.filter fun event => event.spanId = contextSection.spanId ∧
    event.sequence ≤ contextSection.sequence)

def selectContextLifecycle (budgets : Budgets) (sections : Sections) (contexts : Contexts)
    (filtered : Filtered) (skipped : Skipped) : ContextLifecycle :=
  let completedContext := contexts.reverse.findSome? fun completed =>
    let candidateSections := sections.filter fun event => event.spanId = completed.spanId ∧
      event.sequence ≤ completed.sequence ∧ hasCoherentRetrieval event filtered skipped
    candidateSections.reverse.findSome? fun contextSection =>
      (budgetOf budgets contextSection).map fun budget =>
        ({ budget := some budget
           contextSection := some contextSection
           completed := some completed } : ContextLifecycle)
  let assembledContext := sections.reverse.findSome? fun contextSection =>
    if hasCoherentRetrieval contextSection filtered skipped then
      (budgetOf budgets contextSection).map fun budget =>
        ({ budget := some budget, contextSection := some contextSection } : ContextLifecycle)
    else none
  (completedContext <|> assembledContext).getD { budget := last budgets }

structure RetrievalLifecycle where
  retrieved : Option (TypedEnvelope isCandidatesRetrieved) := none
  filtered : Option (TypedEnvelope isCandidatesFiltered) := none
  skipped : Option (TypedEnvelope isBasicRetrievalSkipped) := none

def RetrievalLifecycle.rawEvents (lifecycle : RetrievalLifecycle) : List ExplainabilityEnvelope :=
  Js.sortBy (·.sequence) ((lifecycle.retrieved.map (·.envelope)).toList ++
    (lifecycle.filtered.map (·.envelope)).toList ++
    (lifecycle.skipped.map (·.envelope)).toList)

/-- A branch of the retrieval ends with its decision, its candidates or its skip. -/
structure RetrievalBranch extends RetrievalLifecycle where
  branchEnd : ℚ

/-- The branch that ends last. -/
def latestBranch (branches : List RetrievalBranch) : Option RetrievalBranch :=
  last (Js.sortBy (·.branchEnd) branches)

def retrievalBranches (retrieved : Retrieved) (filtered : Filtered) (skipped : Skipped)
    (cutoff : ℚ) (expectedSection : Option ExplainabilityContextSection) : List RetrievalBranch :=
  (filtered.filterMap fun decision =>
    if decision.sequence ≤ cutoff ∧
        expectedSection.all (matchesContextSection decision.event.candidates) then
      (last (retrieved.filter fun event => event.spanId = decision.spanId ∧
        event.sequence ≤ decision.sequence)).map fun source =>
          { branchEnd := decision.sequence, retrieved := some source, filtered := some decision }
    else none) ++
  ((retrieved.filter (·.sequence ≤ cutoff)).map fun source =>
    { branchEnd := source.sequence, retrieved := some source }) ++
  (skipped.filter (·.sequence ≤ cutoff)).map fun skip =>
    { branchEnd := skip.sequence, skipped := some skip }

/-- A section without candidates asks for a skip, else a decision comes before candidates alone. -/
def selectBranch (branches : List RetrievalBranch)
    (expectedSection : Option ExplainabilityContextSection) : Option RetrievalBranch :=
  let filteredBranches := branches.filter (·.filtered.isSome)
  let skipBranches := branches.filter (·.skipped.isSome)
  if expectedSection.map (·.candidateCount) = some 0 ∧ skipBranches ≠ [] then
    latestBranch skipBranches
  else if filteredBranches ≠ [] then latestBranch filteredBranches
  else latestBranch branches

def selectRetrievalLifecycle (retrieved : Retrieved) (filtered : Filtered) (skipped : Skipped)
    (cutoff : ℚ) (expectedSection : Option ExplainabilityContextSection) : RetrievalLifecycle :=
  let branches := retrievalBranches retrieved filtered skipped cutoff expectedSection
  ((selectBranch branches expectedSection).map (·.toRetrievalLifecycle)).getD {}

structure PairLifecycle {α β : Type} (starts : TypeGuard α) (completions : TypeGuard β) where
  started : Option (TypedEnvelope starts) := none
  completed : Option (TypedEnvelope completions) := none

def PairLifecycle.rawEvents {α β : Type} {starts : TypeGuard α} {completions : TypeGuard β}
    (lifecycle : PairLifecycle starts completions) : List ExplainabilityEnvelope :=
  (lifecycle.started.map (·.envelope)).toList ++ (lifecycle.completed.map (·.envelope)).toList

/-- The last completion up to the cutoff that has a start in its span, with the last such start;
else the last start. -/
def selectPairLifecycle {α β : Type} {startGuard : TypeGuard α} {completionGuard : TypeGuard β}
    (starts : List (TypedEnvelope startGuard)) (completions : List (TypedEnvelope completionGuard))
    (cutoff : ℚ) (floor : Option ℚ) : PairLifecycle startGuard completionGuard :=
  let floor := floor.getD Js.minSafeInteger
  let pair := completions.reverse.findSome? fun completed =>
    if cutoff < completed.sequence then none
    else
      (last (starts.filter fun event => event.spanId = completed.spanId ∧
        floor ≤ event.sequence ∧ event.sequence ≤ completed.sequence)).map fun started =>
          ({ started := some started, completed := some completed } :
            PairLifecycle startGuard completionGuard)
  pair.getD { started := last (starts.filter fun event =>
    floor ≤ event.sequence ∧ event.sequence ≤ cutoff) }

/-! ### The timeline -/

/-- What is shown of a run under its root. -/
structure BasicLifecycles where
  embedding : PairLifecycle isEmbeddingStarted isEmbeddingCompleted
  retrieval : RetrievalLifecycle
  context : ContextLifecycle
  llm : PairLifecycle isLlmRequestStarted isLlmRequestCompleted

def isRoot (envelope : ExplainabilityEnvelope) : Bool :=
  envelope.record.parentSpanId.isNone &&
    eventType envelope.record.event = some "query_started" &&
    (envelope.record.event.get "method").string? = some "basic"

/-- The first terminal event of the root behind its start. -/
def terminalOf (ordered : List ExplainabilityEnvelope) (root : ExplainabilityEnvelope) :
    Option ExplainabilityEnvelope :=
  ordered.find? fun envelope => root.sequence < envelope.sequence &&
    envelope.record.spanId = root.record.spanId && envelope.record.parentSpanId.isNone &&
    (eventType envelope.record.event = some "run_completed" ||
      eventType envelope.record.event = some "run_failed")

/-- The events of the run: those under the root between its start and its end. -/
def eventsUnder (ordered : List ExplainabilityEnvelope) (root : ExplainabilityEnvelope) :
    List ExplainabilityEnvelope :=
  let terminalCutoff := ((terminalOf ordered root).map (·.sequence)).getD (Js.maxSafeInteger : ℚ)
  ordered.filter fun envelope => root.sequence < envelope.sequence ∧
    envelope.sequence < terminalCutoff ∧
    envelope.record.parentSpanId = some root.record.spanId

def basicLifecycles (events : List ExplainabilityEnvelope) : BasicLifecycles :=
  let retrieved := (typedEnvelopes isCandidatesRetrieved events).filter
    (·.event.recordType = "text_unit")
  let filtered := (typedEnvelopes isCandidatesFiltered events).filter
    (·.event.recordType = "text_unit")
  let skipped := typedEnvelopes isBasicRetrievalSkipped events
  let sections := (typedEnvelopes isContextSectionBuilt events).filter
    (·.event.contextSection.sectionName = "sources")
  let context := selectContextLifecycle (typedEnvelopes isContextBudgetAllocated events) sections
    (typedEnvelopes isContextCompleted events) filtered skipped
  let contextCutoff := (context.completed.map (·.sequence)).getD (Js.maxSafeInteger : ℚ)
  let retrieval := selectRetrievalLifecycle retrieved filtered skipped contextCutoff
    (context.contextSection.map (·.event.contextSection))
  let retrievalStart := ((retrieval.rawEvents.head? <|> context.rawEvents.head?).map
    (·.sequence)).getD (Js.maxSafeInteger : ℚ)
  let embedding := if retrieval.skipped.isNone then
      selectPairLifecycle (typedEnvelopes isEmbeddingStarted events)
        (typedEnvelopes isEmbeddingCompleted events) retrievalStart none
    else {}
  let llm := selectPairLifecycle (typedEnvelopes isLlmRequestStarted events)
    (typedEnvelopes isLlmRequestCompleted events) Js.maxSafeInteger
    (context.completed.map (·.sequence))
  { embedding, retrieval, context, llm }

namespace BasicLifecycles

variable (lifecycles : BasicLifecycles)

def claimed : List ℚ :=
  lifecycles.context.rawEvents.map (·.sequence) ++
    lifecycles.retrieval.rawEvents.map (·.sequence) ++
    lifecycles.embedding.rawEvents.map (·.sequence) ++ lifecycles.llm.rawEvents.map (·.sequence)

def retrievalRaw : List ExplainabilityEnvelope :=
  Js.sortBy (·.sequence) (lifecycles.embedding.rawEvents ++
    (lifecycles.retrieval.retrieved.map (·.envelope)).toList ++
    (lifecycles.retrieval.skipped.map (·.envelope)).toList)

def contextRaw : List ExplainabilityEnvelope :=
  Js.sortBy (·.sequence) ((lifecycles.retrieval.filtered.map (·.envelope)).toList ++
    lifecycles.context.rawEvents)

def answerRaw : List ExplainabilityEnvelope := Js.sortBy (·.sequence) lifecycles.llm.rawEvents

/-- The time between two events, where the host can read their timestamps. -/
def elapsedBetween (dateParse : String → Option ℚ)
    (started completed : Option ExplainabilityEnvelope) : Option ℚ := do
  let started ← started
  let completed ← completed
  let start ← dateParse started.record.timestamp
  let finish ← dateParse completed.record.timestamp
  guard (start ≤ finish)
  return finish - start

def retrievalSummary (dateParse : String → Option ℚ) : BasicRetrievalSummary :=
  let started := lifecycles.embedding.started
  let completed := lifecycles.embedding.completed
  { status :=
      if lifecycles.retrieval.skipped.isSome then .skipped
      else if lifecycles.retrieval.retrieved.isSome then .retrieved
      else if completed.isSome then .embeddingReady
      else if started.isSome then .embedding
      else .waiting
    skippedReason := lifecycles.retrieval.skipped.map (·.event.reason)
    model := completed.map (·.event.modelId) <|> started.map (·.event.modelId)
    promptTokens := completed.map (·.event.promptTokens)
    dimensions := completed.map (·.event.dimensions)
    elapsedMs := elapsedBetween dateParse (started.map (·.envelope)) (completed.map (·.envelope))
    candidates := (lifecycles.retrieval.retrieved.map (·.event.candidates)).getD [] }

def contextSummary : BasicContextSummary :=
  let sourceSection := lifecycles.context.contextSection.map (·.event.contextSection)
  let decisions := (lifecycles.retrieval.filtered.map (·.event.candidates)).getD []
  { status :=
      if lifecycles.context.completed.isSome then .completed
      else if lifecycles.context.rawEvents ≠ [] ∨ lifecycles.retrieval.filtered.isSome then
        .assembling
      else .waiting
    candidates := decisions
    candidateCount := sourceSection.map (·.candidateCount)
    selectedCount := sourceSection.map (·.selectedCount)
    tokenBudgetExcludedCount := sourceSection.map fun _ =>
      (decisions.filter fun candidate =>
        !candidate.selected && candidate.reason = some "token_budget").length
    tokenBudget := sourceSection.map (·.tokenBudget) <|>
      lifecycles.context.budget.map (·.event.totalTokenBudget)
    budgetedTokensUsed := sourceSection.map (·.tokensUsed)
    truncated := sourceSection.map (·.truncated)
    selectedRecordIds := (sourceSection.map (·.selectedRecordIds)).getD []
    exactContext := lifecycles.context.completed.bind (·.event.context) }

def answerSummary : BasicAnswerSummary :=
  let started := lifecycles.llm.started
  let completed := lifecycles.llm.completed
  { status :=
      if completed.isSome then .generated else if started.isSome then .generating else .waiting
    calls := if started.isSome || completed.isSome then 1 else 0
    model := completed.map (·.event.modelId) <|> started.map (·.event.modelId)
    inputTokens := completed.map (·.event.inputTokens) <|> started.map (·.event.promptTokens)
    outputTokens := completed.map (·.event.outputTokens)
    elapsedMs := completed.map (·.event.elapsedMs)
    exactPrompt := started.bind (·.event.prompt)
    rawResponse := completed.bind (·.event.response) }

def steps (dateParse : String → Option ℚ) : List BasicSemanticStep :=
  [.textRetrieval lifecycles.retrievalRaw (lifecycles.retrievalSummary dateParse),
    .basicContextAssembly lifecycles.contextRaw lifecycles.contextSummary,
    .basicAnswerGeneration lifecycles.answerRaw lifecycles.answerSummary]

end BasicLifecycles

/-- `dateParse` is `Date.parse` where it gives a finite number. -/
def buildBasicSemanticTimeline (dateParse : String → Option ℚ)
    (envelopes : List ExplainabilityEnvelope) : BasicSemanticTimelineModel :=
  let ordered := Js.sortBy (·.sequence) envelopes
  match ordered.find? isRoot with
  | none => { steps := [], diagnosticEvents := ordered }
  | some root =>
    let lifecycles := basicLifecycles (eventsUnder ordered root)
    { steps := lifecycles.steps dateParse
      diagnosticEvents := ordered.filter fun envelope =>
        !lifecycles.claimed.contains envelope.sequence }

end GraphLoom.Studio.SemanticBasic
