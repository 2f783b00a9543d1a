import GraphLoom.Foundation.InsertionMap
import GraphLoom.Studio.GlobalEvents
import Mathlib.Algebra.GroupWithZero.Nat

/-!
# The Global timeline

`buildGlobalSemanticTimeline` reads the envelopes of a Global run and shows what the run did as up
to five steps.  It gathers the evidence of the community selection, of the batches of the map and
of the reduction, and claims the sequences of what it shows; an envelope that nothing has claimed is
left for the diagnostics.  Sums of numbers are exact.
-/

namespace GraphLoom.Studio.SemanticGlobal

open Foundation

/-- What the host has of its own: the order of its locale, and the text of a number. -/
structure Host where
  /-- `String.prototype.localeCompare`. -/
  localeCompare : String → String → ℤ
  /-- The text of a number in a template. -/
  numberToString : ℚ → String

/-! ### The views -/

inductive GlobalMapBatchStatus where
  | ready
  | analyzing
  | responseReceived
  | completed
deriving DecidableEq, Repr

inductive DynamicRatingAttemptStatus where
  | rating
  | responseReceived
deriving DecidableEq, Repr

structure DynamicTraversalWaveView where
  waveIndex : ℤ
  source : DynamicTraversalWaveSource
  communityIds : List String

structure DynamicRatingAttemptView where
  identity : String
  spanId : String
  communityId : String
  reportId : String
  repeatIndex : ℤ
  repeatCount : ℤ
  status : DynamicRatingAttemptStatus
  model : Option String
  inputTokens : Option ℚ
  outputTokens : Option ℚ
  elapsedMs : Option ℚ
  exactPrompt : Option String
  rawResponse : Option String
  rawEvents : List ExplainabilityEnvelope

structure DynamicCommunityDecisionView extends DynamicCommunityRatingEvidence where
  attempts : List DynamicRatingAttemptView

structure DynamicCommunitySelectionSummary where
  started : Bool
  completed : Bool
  initialCommunityCount : Option ℤ
  threshold : Option ℤ
  maxLevel : Option ℤ
  keepParent : Option Bool
  useSummary : Option Bool
  numRepeats : Option ℤ
  activeWave : Option ℤ
  visitedCount : Option ℤ
  thresholdPassedCount : Option ℤ
  selectedCount : Option ℤ
  attemptsStarted : ℕ
  attemptsCompleted : ℕ
  waves : List DynamicTraversalWaveView
  decisions : List DynamicCommunityDecisionView

structure GlobalMapPointView extends GlobalMapPointEvidence where
  identity : String

structure GlobalReduceDecisionView extends GlobalMapPointDecision where
  identity : String

structure GlobalMapBatchView where
  batchIndex : ℚ
  spanId : String
  reportCount : ℚ
  reportIds : List String
  tokensUsed : ℚ
  tokenBudget : ℚ
  exactContext : Option String
  status : GlobalMapBatchStatus
  model : Option String
  inputTokens : Option ℚ
  outputTokens : Option ℚ
  elapsedMs : Option ℚ
  exactPrompt : Option String
  rawResponse : Option String
  points : List GlobalMapPointView
  rawEvents : List ExplainabilityEnvelope

structure GlobalCommunityContextSummary where
  built : Bool
  reportCount : Option ℚ
  batchCount : Option ℚ
  tokensUsed : ℚ
  batches : List GlobalMapBatchView

structure GlobalMapAnalysisSummary where
  started : Bool
  batchCount : Option ℚ
  analystCalls : ℕ
  pointCount : ℕ
  positivePointCount : ℕ
  batches : List GlobalMapBatchView

structure GlobalReduceSummary where
  built : Bool
  candidatePointCount : Option ℚ
  positivePointCount : Option ℚ
  selectedPointCount : Option ℚ
  nonPositiveCount : Option ℕ
  tokenBudgetExcludedCount : Option ℕ
  tokenBudget : Option ℚ
  tokensUsed : Option ℚ
  truncated : Bool
  decisions : List GlobalReduceDecisionView
  exactContext : Option String
  skippedReason : Option GlobalReduceSkippedReason

structure GlobalAnswerGenerationSummary where
  calls : ℕ
  generated : Bool
  noDataPathSelected : Bool
  noDataAnswerReturned : Bool
  model : Option String
  inputTokens : Option ℚ
  outputTokens : Option ℚ
  elapsedMs : Option ℚ
  exactPrompt : Option String
  rawResponse : Option String

inductive GlobalSemanticStep where
  | communitySelection (rawEvents : List ExplainabilityEnvelope)
      (summary : DynamicCommunitySelectionSummary)
  | communityContext (rawEvents : List ExplainabilityEnvelope)
      (summary : GlobalCommunityContextSummary)
  | mapAnalysis (rawEvents : List ExplainabilityEnvelope) (summary : GlobalMapAnalysisSummary)
  | evidenceReduction (rawEvents : List ExplainabilityEnvelope) (summary : GlobalReduceSummary)
  | globalAnswerGeneration (rawEvents : List ExplainabilityEnvelope)
      (summary : GlobalAnswerGenerationSummary)

namespace GlobalSemanticStep

def rawEvents : GlobalSemanticStep → List ExplainabilityEnvelope
  | communitySelection rawEvents _ => rawEvents
  | communityContext rawEvents _ => rawEvents
  | mapAnalysis rawEvents _ => rawEvents
  | evidenceReduction rawEvents _ => rawEvents
  | globalAnswerGeneration rawEvents _ => rawEvents

/-- The batches a step shows. -/
def batches : GlobalSemanticStep → List GlobalMapBatchView
  | communityContext _ summary => summary.batches
  | mapAnalysis _ summary => summary.batches
  | _ => []

end GlobalSemanticStep

inductive GlobalTimelineVariant where
  | static
  | dynamic
deriving DecidableEq, Repr

structure GlobalSemanticTimelineModel where
  variant : GlobalTimelineVariant
  steps : List GlobalSemanticStep
  diagnosticEvents : List ExplainabilityEnvelope

/-! ### The lifecycle of a model request -/

abbrev LlmStarts := List (TypedEnvelope isLlmRequestStarted)

abbrev LlmCompletions := List (TypedEnvelope isLlmRequestCompleted)

structure LlmLifecycle where
  started : Option (TypedEnvelope isLlmRequestStarted) := none
  completed : Option (TypedEnvelope isLlmRequestCompleted) := none

namespace LlmLifecycle

variable (lifecycle : LlmLifecycle)

def rawEvents : List ExplainabilityEnvelope :=
  (lifecycle.started.map (·.envelope)).toList ++ (lifecycle.completed.map (·.envelope)).toList

def model : Option String :=
  lifecycle.completed.map (·.event.modelId) <|> lifecycle.started.map (·.event.modelId)

def inputTokens : Option ℚ :=
  lifecycle.completed.map (·.event.inputTokens) <|> lifecycle.started.map (·.event.promptTokens)

def outputTokens : Option ℚ := lifecycle.completed.map (·.event.outputTokens)

def elapsedMs : Option ℚ := lifecycle.completed.map (·.event.elapsedMs)

def exactPrompt : Option String := lifecycle.started.bind (·.event.prompt)

def rawResponse : Option String := lifecycle.completed.bind (·.event.response)

end LlmLifecycle

/-- The last completion behind a start, with the last start before it; else the last start. -/
def selectLlmLifecycle (starts : LlmStarts) (completions : LlmCompletions) (parentSpan : String)
    (afterSequence : ℚ) : LlmLifecycle :=
  let validStarts := starts.filter fun event =>
    event.parentSpanId = some parentSpan ∧ afterSequence < event.sequence
  let validCompletions := completions.filter fun event =>
    event.parentSpanId = some parentSpan ∧ afterSequence < event.sequence
  let pair := validCompletions.reverse.findSome? fun completed =>
    (last (validStarts.filter fun event => event.sequence ≤ completed.sequence)).map fun started =>
      ({ started := some started, completed := some completed } : LlmLifecycle)
  pair.getD { started := last validStarts }

/-- The requests of a span, from the maps by span. -/
def requestsOfSpan {α : Type} {guard : TypeGuard α}
    (bySpan : InsertionMap String (List (TypedEnvelope guard))) (span : String) :
    List (TypedEnvelope guard) := (bySpan.get span).getD []

/-! ### The dynamic community selection -/

/-- `sequence < bound`, where the bound may be infinite. -/
def belowBound (bound : Option ℚ) (sequence : ℚ) : Bool := bound.all (sequence < ·)

/-- `sequence > bound`, where the bound may be infinite. -/
def aboveBound (bound : Option ℚ) (sequence : ℚ) : Bool := bound.all (· < sequence)

def dynamicAttemptIdentity (communityId : String) (repeatIndex : ℤ) : String :=
  communityId ++ ":" ++ toString repeatIndex

def attemptIdentity (attempt : TypedEnvelope isDynamicRatingAttemptStarted) : String :=
  dynamicAttemptIdentity attempt.event.communityId attempt.event.repeatIndex

def buildDynamicAttemptView (attempt : TypedEnvelope isDynamicRatingAttemptStarted)
    (selectionSpan : String) (upperBound : Option ℚ) (starts : LlmStarts)
    (completions : LlmCompletions) : DynamicRatingAttemptView :=
  let lifecycle := selectLlmLifecycle
    (starts.filter fun event => belowBound upperBound event.sequence)
    (completions.filter fun event => belowBound upperBound event.sequence)
    selectionSpan attempt.sequence
  { identity := attemptIdentity attempt
    spanId := attempt.spanId
    communityId := attempt.event.communityId
    reportId := attempt.event.reportId
    repeatIndex := attempt.event.repeatIndex
    repeatCount := attempt.event.repeatCount
    status := if lifecycle.completed.isNone then .rating else .responseReceived
    model := lifecycle.model
    inputTokens := lifecycle.inputTokens
    outputTokens := lifecycle.outputTokens
    elapsedMs := lifecycle.elapsedMs
    exactPrompt := lifecycle.exactPrompt
    rawResponse := lifecycle.rawResponse
    rawEvents := Js.sortBy (·.sequence) (attempt.envelope :: lifecycle.rawEvents) }

structure DynamicSelectionBuild where
  rawEvents : List ExplainabilityEnvelope
  summary : DynamicCommunitySelectionSummary

/-- `left.localeCompare(right) || left.repeatIndex - right.repeatIndex`. -/
def Host.compareAttempts (host : Host) (left right : DynamicRatingAttemptView) : ℤ :=
  let order := host.localeCompare left.communityId right.communityId
  if order ≠ 0 then order else left.repeatIndex - right.repeatIndex

/-- A completion of the selection counts when its ratings fit the threshold of its start. -/
def selectionCompletedFits (queryRootSpan : String)
    (rootStarts : List (TypedEnvelope isDynamicSelectionStarted))
    (candidate : TypedEnvelope isDynamicSelectionCompleted) : Bool :=
  candidate.parentSpanId = some queryRootSpan &&
    (last (rootStarts.filter fun event => event.spanId = candidate.spanId ∧
      event.parentSpanId = candidate.parentSpanId ∧ event.sequence < candidate.sequence)).any
      fun candidateStart => candidate.event.ratings.all fun rating =>
        rating.thresholdPassed == decide (candidateStart.event.threshold ≤ rating.selectedRating)

/-- An attempt counts when it lies between the bounds and fits the waves, the start and the final
ratings, as far as they are known. -/
def attemptFits (selectionSpan : String) (lowerBound upperBound : Option ℚ)
    (canonicalWaves : List (TypedEnvelope isDynamicTraversalWaveStarted))
    (started : Option (TypedEnvelope isDynamicSelectionStarted))
    (completed : Option (TypedEnvelope isDynamicSelectionCompleted))
    (finalReports : InsertionMap String String)
    (attempt : TypedEnvelope isDynamicRatingAttemptStarted) : Bool :=
  attempt.parentSpanId = some selectionSpan && aboveBound lowerBound attempt.sequence &&
    belowBound upperBound attempt.sequence &&
    (canonicalWaves.isEmpty || (canonicalWaves.flatMap (·.event.communityIds)).contains
      attempt.event.communityId) &&
    started.all (fun started => attempt.event.repeatCount = started.event.numRepeats) &&
    (completed.isNone || finalReports.get attempt.event.communityId = some attempt.event.reportId)

def buildDynamicSelection (host : Host) (queryRootSpan : Option String)
    (starts : List (TypedEnvelope isDynamicSelectionStarted))
    (waves : List (TypedEnvelope isDynamicTraversalWaveStarted))
    (attempts : List (TypedEnvelope isDynamicRatingAttemptStarted))
    (completions : List (TypedEnvelope isDynamicSelectionCompleted))
    (llmStartedBySpan : InsertionMap String LlmStarts)
    (llmCompletedBySpan : InsertionMap String LlmCompletions) : Option DynamicSelectionBuild := do
  let queryRootSpan ← queryRootSpan
  let rootStarts := starts.filter (·.parentSpanId = some queryRootSpan)
  let rootWaves := waves.filter (·.parentSpanId = some queryRootSpan)
  let rootSelectionSpans := rootStarts.map (·.spanId) ++ rootWaves.map (·.spanId)
  let rootAttempts := attempts.filter fun event =>
    rootSelectionSpans.contains (event.parentSpanId.getD "")
  let completed := completions.reverse.find? (selectionCompletedFits queryRootSpan rootStarts)
  let latestSignal := last (Js.sortBy (·.sequence) (rootStarts.map (·.envelope) ++
    rootWaves.map (·.envelope) ++ rootAttempts.map (·.envelope)))
  let selectionSpan ← completed.map (·.spanId) <|> latestSignal.bind fun signal =>
    if eventType signal.record.event = some "dynamic_community_rating_attempt_started" then
      signal.record.parentSpanId
    else some signal.record.spanId
  let selectionParent := completed.bind (·.parentSpanId) <|>
    (last (Js.sortBy (·.sequence) ((rootStarts.map (·.envelope) ++ rootWaves.map (·.envelope)).filter
      fun event => event.record.spanId = selectionSpan))).bind (·.record.parentSpanId)
  let upperBound := completed.map (·.sequence)
  let started := last (rootStarts.filter fun event => event.spanId = selectionSpan ∧
    event.parentSpanId = selectionParent ∧ belowBound upperBound event.sequence)
  let lowerBound := started.map (·.sequence)
  let matchingWaves := rootWaves.filter fun event => event.spanId = selectionSpan ∧
    event.parentSpanId = selectionParent ∧ aboveBound lowerBound event.sequence ∧
    belowBound upperBound event.sequence
  let latestWaveByIndex := InsertionMap.latest (·.event.waveIndex) matchingWaves
  let canonicalWaves := Js.sortBy (·.sequence) latestWaveByIndex.values
  let finalReports : InsertionMap String String :=
    ((completed.map (·.event.ratings)).getD []).foldl
      (fun entries rating => InsertionMap.set rating.communityId rating.reportId entries) []
  let latestAttemptByIdentity := InsertionMap.latest attemptIdentity (rootAttempts.filter
    (attemptFits selectionSpan lowerBound upperBound canonicalWaves started completed finalReports))
  let attemptViews := (latestAttemptByIdentity.values.map fun attempt =>
      buildDynamicAttemptView attempt selectionSpan upperBound
        (requestsOfSpan llmStartedBySpan attempt.spanId)
        (requestsOfSpan llmCompletedBySpan attempt.spanId)).insertionSort
    fun left right => host.compareAttempts left right ≤ 0
  let attemptsByCommunity := InsertionMap.grouped (·.communityId) attemptViews
  let decisions := ((completed.map (·.event.ratings)).getD []).map fun rating =>
    { rating with
      attempts := Js.sortBy (fun attempt => (attempt.repeatIndex : ℚ))
        ((attemptsByCommunity.get rating.communityId).getD []) }
  let rawEvents := Js.sortBy (·.sequence) ((started.map (·.envelope)).toList ++
    canonicalWaves.map (·.envelope) ++ attemptViews.flatMap (·.rawEvents) ++
    (completed.map (·.envelope)).toList)
  let latestWave := last canonicalWaves
  return {
    rawEvents
    summary := {
      started := started.isSome
      completed := completed.isSome
      initialCommunityCount := started.map (·.event.initialCommunityCount)
      threshold := started.map (·.event.threshold)
      maxLevel := started.map (·.event.maxLevel)
      keepParent := started.map (·.event.keepParent)
      useSummary := started.map (·.event.useSummary)
      numRepeats := started.map (·.event.numRepeats)
      activeWave := if completed.isNone then latestWave.map (·.event.waveIndex) else none
      visitedCount := completed.map (·.event.visitedCount)
      thresholdPassedCount := completed.map (·.event.thresholdPassedCount)
      selectedCount := completed.map (·.event.selectedCount)
      attemptsStarted := attemptViews.length
      attemptsCompleted := (attemptViews.filter (·.status = .responseReceived)).length
      waves := Js.sortBy (fun wave => (wave.waveIndex : ℚ)) (canonicalWaves.map fun wave =>
        ⟨wave.event.waveIndex, wave.event.source, wave.event.communityIds⟩)
      decisions } }

/-! ### The batches of the map -/

structure BatchEvidence where
  latestBuilt : TypedEnvelope isGlobalMapBatchBuilt
  rawEvents : List ExplainabilityEnvelope
  lifecycle : LlmLifecycle
  produced : Option (TypedEnvelope isGlobalMapPointsProduced) := none

/-- The evidence of one batch: the built events of the span of its last one, and the lifecycle of
the request of that span. -/
def batchEvidence (mapSpan : String) (llmStartedBySpan : InsertionMap String LlmStarts)
    (llmCompletedBySpan : InsertionMap String LlmCompletions)
    (events : List (TypedEnvelope isGlobalMapBatchBuilt)) : Option BatchEvidence := do
  let validEvents := events.filter (·.parentSpanId = some mapSpan)
  let latestBuilt ← last validEvents
  let canonicalBuiltEvents := validEvents.filter (·.spanId = latestBuilt.spanId)
  let span := latestBuilt.spanId
  let lifecycle := selectLlmLifecycle (requestsOfSpan llmStartedBySpan span)
    (requestsOfSpan llmCompletedBySpan span) mapSpan latestBuilt.sequence
  return {
    latestBuilt
    rawEvents := canonicalBuiltEvents.map (·.envelope) ++ lifecycle.rawEvents
    lifecycle }

def collectBatches (mapSpan : Option String)
    (batchEvents : InsertionMap ℚ (List (TypedEnvelope isGlobalMapBatchBuilt)))
    (llmStartedBySpan : InsertionMap String LlmStarts)
    (llmCompletedBySpan : InsertionMap String LlmCompletions) : InsertionMap ℚ BatchEvidence :=
  batchEvents.filterMap fun (batchIndex, events) => do
    let mapSpan ← mapSpan
    let batch ← batchEvidence mapSpan llmStartedBySpan llmCompletedBySpan events
    return (batchIndex, batch)

/-- Whether the points of a batch follow its completed request, with no later start before them. -/
def pointsBelong (mapSpan : Option String) (llmStartedBySpan : InsertionMap String LlmStarts)
    (batch : BatchEvidence) (produced : TypedEnvelope isGlobalMapPointsProduced) : Bool :=
  produced.spanId = batch.latestBuilt.spanId && produced.parentSpanId = mapSpan &&
    batch.lifecycle.completed.any fun completed =>
      completed.sequence ≤ produced.sequence &&
        !(requestsOfSpan llmStartedBySpan produced.spanId).any fun event =>
          event.parentSpanId = mapSpan && completed.sequence < event.sequence &&
            event.sequence ≤ produced.sequence

/-- One turn of the loop over the points events. -/
def attachPoints (mapSpan : Option String) (llmStartedBySpan : InsertionMap String LlmStarts)
    (batches : InsertionMap ℚ BatchEvidence)
    (produced : TypedEnvelope isGlobalMapPointsProduced) : InsertionMap ℚ BatchEvidence :=
  match batches.get produced.event.batchIndex with
  | none => batches
  | some batch =>
    if pointsBelong mapSpan llmStartedBySpan batch produced ∧
        batch.produced.all (·.sequence ≤ produced.sequence) then
      InsertionMap.set produced.event.batchIndex { batch with produced := some produced } batches
    else batches

/-- The points of a batch are the last of its raw events. -/
def BatchEvidence.withPoints (batch : BatchEvidence) : BatchEvidence :=
  { batch with
    rawEvents := batch.rawEvents ++ (batch.produced.map (·.envelope)).toList }

def pointIdentity (host : Host) (batchIndex pointIndex : ℚ) : String :=
  host.numberToString batchIndex ++ ":" ++ host.numberToString pointIndex

/-- The raw events of the batch are sorted in place. -/
def buildBatchView (host : Host) (batch : BatchEvidence) : GlobalMapBatchView :=
  let event := batch.latestBuilt.event
  let points := (batch.produced.map fun produced => Js.sortBy (·.pointIndex)
    (produced.event.points.map fun point =>
      ({ point with identity := pointIdentity host point.batchIndex point.pointIndex } :
        GlobalMapPointView))).getD []
  let status :=
    if batch.produced.isSome then .completed
    else if batch.lifecycle.completed.isSome then .responseReceived
    else if batch.lifecycle.started.isSome then .analyzing
    else .ready
  { batchIndex := event.batchIndex
    spanId := batch.latestBuilt.spanId
    reportCount := event.reportCount
    reportIds := event.reportIds
    tokensUsed := event.tokensUsed
    tokenBudget := event.tokenBudget
    exactContext := event.context
    status
    model := batch.lifecycle.model
    inputTokens := batch.lifecycle.inputTokens
    outputTokens := batch.lifecycle.outputTokens
    elapsedMs := batch.lifecycle.elapsedMs
    exactPrompt := batch.lifecycle.exactPrompt
    rawResponse := batch.lifecycle.rawResponse
    points
    rawEvents := Js.sortBy (·.sequence) batch.rawEvents }

/-! ### The timeline -/

def isTerminal (envelope : ExplainabilityEnvelope) : Bool :=
  eventType envelope.record.event = some "run_completed" ||
    eventType envelope.record.event = some "run_failed"

/-- The span of the first started Global query without a parent. -/
def queryRootSpan (ordered : List ExplainabilityEnvelope) : Option String :=
  (ordered.find? fun envelope => eventType envelope.record.event = some "query_started" &&
    (envelope.record.event.get "method").string? = some "global" &&
    envelope.record.parentSpanId.isNone).map (·.record.spanId)

def llmStartedBySpan (ordered : List ExplainabilityEnvelope) : InsertionMap String LlmStarts :=
  InsertionMap.grouped (·.spanId) (typedEnvelopes isLlmRequestStarted ordered)

def llmCompletedBySpan (ordered : List ExplainabilityEnvelope) :
    InsertionMap String LlmCompletions :=
  InsertionMap.grouped (·.spanId) (typedEnvelopes isLlmRequestCompleted ordered)

/-- The span of the last event that started the map. -/
def mapSpan (ordered : List ExplainabilityEnvelope) : Option String :=
  (last (typedEnvelopes isGlobalMapStarted ordered)).map (·.spanId)

/-- The batches of the map with their points. -/
def mapBatches (ordered : List ExplainabilityEnvelope) : List BatchEvidence :=
  let batchEvents := InsertionMap.grouped (·.event.batchIndex)
    (typedEnvelopes isGlobalMapBatchBuilt ordered)
  let batches := collectBatches (mapSpan ordered) batchEvents (llmStartedBySpan ordered)
    (llmCompletedBySpan ordered)
  let batches := (typedEnvelopes isGlobalMapPointsProduced ordered).foldl
    (attachPoints (mapSpan ordered) (llmStartedBySpan ordered)) batches
  batches.values.map (·.withPoints)

/-- The skip of a reduction that had no positive points. -/
def compatibleReduceSkipped (reduceBuilt : Option (TypedEnvelope isGlobalReduceContextBuilt))
    (reduceSkippedEvents : List (TypedEnvelope isGlobalReduceSkipped)) :
    Option (TypedEnvelope isGlobalReduceSkipped) := do
  let reduceBuilt ← reduceBuilt
  guard (reduceBuilt.event.positivePointCount ≤ 0)
  last (reduceSkippedEvents.filter fun envelope => envelope.spanId = reduceBuilt.spanId ∧
    envelope.parentSpanId = reduceBuilt.parentSpanId ∧ reduceBuilt.sequence < envelope.sequence)

/-- The request of a reduction that was not skipped. -/
def reduceLifecycle (reduceBuilt : Option (TypedEnvelope isGlobalReduceContextBuilt))
    (reduceSkipped : Option (TypedEnvelope isGlobalReduceSkipped))
    (llmStartedBySpan : InsertionMap String LlmStarts)
    (llmCompletedBySpan : InsertionMap String LlmCompletions) : LlmLifecycle :=
  match reduceBuilt, reduceBuilt.bind (·.parentSpanId), reduceSkipped with
  | some reduceBuilt, some reduceParentSpan, none =>
    selectLlmLifecycle (requestsOfSpan llmStartedBySpan reduceBuilt.spanId)
      (requestsOfSpan llmCompletedBySpan reduceBuilt.spanId) reduceParentSpan reduceBuilt.sequence
  | _, _, _ => {}

def reduceSummary (host : Host) (reduceBuilt : Option (TypedEnvelope isGlobalReduceContextBuilt))
    (reduceSkipped : Option (TypedEnvelope isGlobalReduceSkipped)) : GlobalReduceSummary :=
  let decisions := ((reduceBuilt.map (·.event.points)).getD []).map fun point =>
    ({ point with identity := pointIdentity host point.batchIndex point.pointIndex } :
      GlobalReduceDecisionView)
  let nonPositiveCount := (decisions.filter (·.reason = .nonPositiveScore)).length
  let tokenBudgetExcludedCount := (decisions.filter (·.reason = .tokenBudget)).length
  { built := reduceBuilt.isSome
    candidatePointCount := reduceBuilt.map (·.event.candidatePointCount)
    positivePointCount := reduceBuilt.map (·.event.positivePointCount)
    selectedPointCount := reduceBuilt.map (·.event.selectedPointCount)
    nonPositiveCount := reduceBuilt.map fun _ => nonPositiveCount
    tokenBudgetExcludedCount := reduceBuilt.map fun _ => tokenBudgetExcludedCount
    tokenBudget := reduceBuilt.map (·.event.tokenBudget)
    tokensUsed := reduceBuilt.map (·.event.tokensUsed)
    truncated := (reduceBuilt.map (·.event.truncated)).getD false
    decisions
    exactContext := reduceBuilt.bind (·.event.context)
    skippedReason := reduceSkipped.map (·.event.reason) }

def answerSummary (ordered : List ExplainabilityEnvelope)
    (reduceSkipped : Option (TypedEnvelope isGlobalReduceSkipped)) (lifecycle : LlmLifecycle) :
    GlobalAnswerGenerationSummary :=
  let noDataPathSelected := reduceSkipped.any (·.event.reason = .noPositivePoints)
  let terminal := last (ordered.filter fun envelope => isTerminal envelope &&
    some envelope.record.spanId = queryRootSpan ordered && envelope.record.parentSpanId.isNone)
  let noDataAnswerReturned := noDataPathSelected && terminal.any fun terminal =>
    eventType terminal.record.event = some "run_completed" &&
      (reduceSkipped.map (·.sequence)).getD (Js.maxSafeInteger : ℚ) < terminal.sequence
  { calls := if noDataPathSelected then 0
      else if lifecycle.started.isSome || lifecycle.completed.isSome then 1 else 0
    generated := lifecycle.completed.isSome
    noDataPathSelected
    noDataAnswerReturned
    model := lifecycle.model
    inputTokens := lifecycle.inputTokens
    outputTokens := lifecycle.outputTokens
    elapsedMs := lifecycle.elapsedMs
    exactPrompt := lifecycle.exactPrompt
    rawResponse := lifecycle.rawResponse }

section Timeline

variable (host : Host) (ordered : List ExplainabilityEnvelope)

def dynamicSelection : Option DynamicSelectionBuild :=
  buildDynamicSelection host (queryRootSpan ordered)
    (typedEnvelopes isDynamicSelectionStarted ordered)
    (typedEnvelopes isDynamicTraversalWaveStarted ordered)
    (typedEnvelopes isDynamicRatingAttemptStarted ordered)
    (typedEnvelopes isDynamicSelectionCompleted ordered)
    (llmStartedBySpan ordered) (llmCompletedBySpan ordered)

def dynamicRaw : List ExplainabilityEnvelope :=
  ((dynamicSelection host ordered).map (·.rawEvents)).getD []

/-- The sequences that the selection and the batches have claimed. -/
def evidenceClaims : List ℚ :=
  (dynamicRaw host ordered).map (·.sequence) ++
    (mapBatches ordered).flatMap (·.rawEvents.map (·.sequence))

def communityRaw : List ExplainabilityEnvelope :=
  ordered.filter fun envelope =>
    (isGlobalContextBuilt.accepts envelope.record.event).isSome ||
      (isGlobalMapStarted.accepts envelope.record.event).isSome ||
      ((isGlobalMapBatchBuilt.accepts envelope.record.event).isSome &&
        (evidenceClaims host ordered).contains envelope.sequence)

/-- The views in the order of the batches. -/
def mapViews : List GlobalMapBatchView := (mapBatches ordered).map (buildBatchView host)

def mapRaw : List ExplainabilityEnvelope :=
  Js.sortBy (·.sequence) ((mapViews host ordered).flatMap (·.rawEvents))

def reduceBuilt : Option (TypedEnvelope isGlobalReduceContextBuilt) :=
  last (typedEnvelopes isGlobalReduceContextBuilt ordered)

def reduceSkipped : Option (TypedEnvelope isGlobalReduceSkipped) :=
  compatibleReduceSkipped (reduceBuilt ordered) (typedEnvelopes isGlobalReduceSkipped ordered)

def reduceRaw : List ExplainabilityEnvelope :=
  Js.sortBy (·.sequence) (((reduceBuilt ordered).map (·.envelope)).toList ++
    ((reduceSkipped ordered).map (·.envelope)).toList)

def answerLifecycle : LlmLifecycle :=
  reduceLifecycle (reduceBuilt ordered) (reduceSkipped ordered) (llmStartedBySpan ordered)
    (llmCompletedBySpan ordered)

def answerRaw : List ExplainabilityEnvelope :=
  Js.sortBy (·.sequence) (answerLifecycle ordered).rawEvents

def claimedSequences : List ℚ :=
  evidenceClaims host ordered ++ (communityRaw host ordered).map (·.sequence) ++
    (mapRaw host ordered).map (·.sequence) ++ (reduceRaw ordered).map (·.sequence) ++
    (answerRaw ordered).map (·.sequence)

def buildGlobalSemanticTimeline : GlobalSemanticTimelineModel :=
  let contextBuilt := last (typedEnvelopes isGlobalContextBuilt ordered)
  let mapStarted := last (typedEnvelopes isGlobalMapStarted ordered)
  let batchViews := Js.sortBy (·.batchIndex) (mapViews host ordered)
  { variant := if (dynamicSelection host ordered).isNone then .static else .dynamic
    steps := ((dynamicSelection host ordered).map fun dynamicSelection =>
        .communitySelection dynamicSelection.rawEvents dynamicSelection.summary).toList ++
      [.communityContext (communityRaw host ordered)
        { built := contextBuilt.isSome
          reportCount := contextBuilt.map (·.event.reportCount)
          batchCount := contextBuilt.map (·.event.batchCount)
          tokensUsed := (batchViews.map (·.tokensUsed)).sum
          batches := batchViews },
      .mapAnalysis (mapRaw host ordered)
        { started := mapStarted.isSome
          batchCount := mapStarted.map (·.event.batchCount)
          analystCalls := (batchViews.filter (·.model.isSome)).length
          pointCount := (batchViews.map (·.points.length)).sum
          positivePointCount :=
            (batchViews.map fun batch => (batch.points.filter (0 < ·.score)).length).sum
          batches := batchViews },
      .evidenceReduction (reduceRaw ordered)
        (reduceSummary host (reduceBuilt ordered) (reduceSkipped ordered)),
      .globalAnswerGeneration (answerRaw ordered)
        (answerSummary ordered (reduceSkipped ordered) (answerLifecycle ordered))]
    diagnosticEvents := ordered.filter fun envelope =>
      !(claimedSequences host ordered).contains envelope.sequence }

end Timeline

end GraphLoom.Studio.SemanticGlobal
