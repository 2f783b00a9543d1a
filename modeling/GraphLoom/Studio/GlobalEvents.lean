import GraphLoom.Studio.Envelope

/-!
# The events of a Global run

The events the Global timeline looks for, each with the guard that reads it.
-/

namespace GraphLoom.Studio.SemanticGlobal

open Foundation

/-! ### The events -/

structure DynamicCommunitySelectionStartedEvent where
  initialCommunityCount : ℤ
  threshold : ℤ
  maxLevel : ℤ
  keepParent : Bool
  useSummary : Bool
  numRepeats : ℤ
deriving DecidableEq, Repr

inductive DynamicTraversalWaveSource where
  | initial
  | childExpansion
  | fallback
deriving DecidableEq, Repr

structure DynamicCommunityTraversalWaveStartedEvent where
  waveIndex : ℤ
  source : DynamicTraversalWaveSource
  communityIds : List String
deriving DecidableEq, Repr

structure DynamicCommunityRatingAttemptStartedEvent where
  communityId : String
  reportId : String
  repeatIndex : ℤ
  repeatCount : ℤ
deriving DecidableEq, Repr

structure DynamicCommunityRatingEvidence where
  communityId : String
  reportId : String
  level : ℤ
  selectedRating : ℤ
  thresholdPassed : Bool
  selected : Bool
deriving DecidableEq, Repr

structure DynamicCommunitySelectionCompletedEvent where
  visitedCount : ℤ
  thresholdPassedCount : ℤ
  selectedCount : ℤ
  selectedCommunityIds : List String
  selectedReportIds : List String
  ratings : List DynamicCommunityRatingEvidence
deriving DecidableEq, Repr

structure GlobalContextBuiltEvent where
  batchCount : ℚ
  reportCount : ℚ
deriving DecidableEq, Repr

structure GlobalMapStartedEvent where
  batchCount : ℚ
deriving DecidableEq, Repr

structure GlobalMapBatchBuiltEvent where
  batchIndex : ℚ
  reportCount : ℚ
  reportIds : List String
  tokensUsed : ℚ
  tokenBudget : ℚ
  context : Option String
deriving DecidableEq, Repr

structure GlobalMapPointEvidence where
  batchIndex : ℚ
  pointIndex : ℚ
  score : ℚ
  answer : Option String
deriving DecidableEq, Repr

structure GlobalMapPointsProducedEvent where
  batchIndex : ℚ
  points : List GlobalMapPointEvidence
deriving DecidableEq, Repr

inductive GlobalMapPointDecisionReason where
  | selected
  | nonPositiveScore
  | tokenBudget
deriving DecidableEq, Repr

structure GlobalMapPointDecision extends GlobalMapPointEvidence where
  selected : Bool
  reason : GlobalMapPointDecisionReason
deriving DecidableEq, Repr

structure GlobalReduceContextBuiltEvent where
  candidatePointCount : ℚ
  positivePointCount : ℚ
  selectedPointCount : ℚ
  tokenBudget : ℚ
  tokensUsed : ℚ
  truncated : Bool
  points : List GlobalMapPointDecision
  context : Option String
deriving DecidableEq, Repr

inductive GlobalReduceSkippedReason where
  | noPositivePoints
deriving DecidableEq, Repr

structure GlobalReduceSkippedEvent where
  reason : GlobalReduceSkippedReason
deriving DecidableEq, Repr

structure LlmRequestStartedEvent where
  modelId : String
  promptTokens : ℚ
  prompt : Option String
deriving DecidableEq, Repr

structure LlmRequestCompletedEvent where
  modelId : String
  inputTokens : ℚ
  outputTokens : ℚ
  elapsedMs : ℚ
  response : Option String
deriving DecidableEq, Repr

/-! ### The guards -/

/-- A word of a fixed list, with what it stands for. -/
def wordOf {α : Type} (words : List (String × α)) (value : Js.Value) : Option α :=
  value.string?.bind fun word => words.lookup word

def isGlobalContextBuilt : TypeGuard GlobalContextBuiltEvent where
  type := "global_context_built"
  fields event := do
    let batchCount ← (event.get "batch_count").finiteNumber?
    let reportCount ← (event.get "report_count").finiteNumber?
    return { batchCount, reportCount }

def isDynamicSelectionStarted : TypeGuard DynamicCommunitySelectionStartedEvent where
  type := "dynamic_community_selection_started"
  fields event := do
    let initialCommunityCount ← (event.get "initial_community_count").positiveInteger?
    let threshold ← (event.get "threshold").safeInteger?
    let maxLevel ← (event.get "max_level").nonNegativeInteger?
    let keepParent ← (event.get "keep_parent").boolean?
    let useSummary ← (event.get "use_summary").boolean?
    let numRepeats ← (event.get "num_repeats").positiveInteger?
    return { initialCommunityCount, threshold, maxLevel, keepParent, useSummary, numRepeats }

def isDynamicTraversalWaveStarted : TypeGuard DynamicCommunityTraversalWaveStartedEvent where
  type := "dynamic_community_traversal_wave_started"
  fields event := do
    let waveIndex ← (event.get "wave_index").nonNegativeInteger?
    let source ← wordOf [("initial", .initial), ("child_expansion", .childExpansion),
      ("fallback", .fallback)] (event.get "source")
    let communityIds ← (event.get "community_ids").arrayOf? Js.Value.nonEmptyString?
    guard (0 < communityIds.length)
    return { waveIndex, source, communityIds }

def isDynamicRatingAttemptStarted : TypeGuard DynamicCommunityRatingAttemptStartedEvent where
  type := "dynamic_community_rating_attempt_started"
  fields event := do
    let communityId ← (event.get "community_id").nonEmptyString?
    let reportId ← (event.get "report_id").nonEmptyString?
    let repeatIndex ← (event.get "repeat_index").nonNegativeInteger?
    let repeatCount ← (event.get "repeat_count").positiveInteger?
    guard (repeatIndex < repeatCount)
    return { communityId, reportId, repeatIndex, repeatCount }

def isDynamicRatingEvidence (value : Js.Value) : Option DynamicCommunityRatingEvidence := do
  guard value.isObject
  let communityId ← (value.get "community_id").nonEmptyString?
  let reportId ← (value.get "report_id").nonEmptyString?
  let level ← (value.get "level").safeInteger?
  let selectedRating ← (value.get "selected_rating").safeInteger?
  let thresholdPassed ← (value.get "threshold_passed").boolean?
  let selected ← (value.get "selected").boolean?
  guard (!selected || thresholdPassed)
  return { communityId, reportId, level, selectedRating, thresholdPassed, selected }

/-- The selected ratings are those of the selected communities and reports, in their order. -/
def selectionMatches (selected : List DynamicCommunityRatingEvidence)
    (selectedCommunityIds selectedReportIds : List String) : Bool :=
  selected.zipIdx.all fun (rating, index) =>
    rating.thresholdPassed && selectedCommunityIds[index]? = some rating.communityId &&
      selectedReportIds[index]? = some rating.reportId

def isDynamicSelectionCompleted : TypeGuard DynamicCommunitySelectionCompletedEvent where
  type := "dynamic_community_selection_completed"
  fields event := do
    let visitedCount ← (event.get "visited_count").nonNegativeInteger?
    let thresholdPassedCount ← (event.get "threshold_passed_count").nonNegativeInteger?
    let selectedCount ← (event.get "selected_count").nonNegativeInteger?
    let selectedCommunityIds ← (event.get "selected_community_ids").arrayOf?
      Js.Value.nonEmptyString?
    let selectedReportIds ← (event.get "selected_report_ids").arrayOf? Js.Value.nonEmptyString?
    let ratings ← (event.get "ratings").arrayOf? isDynamicRatingEvidence
    let passed := ratings.filter (·.thresholdPassed)
    let selected := ratings.filter (·.selected)
    guard (visitedCount = ratings.length ∧ thresholdPassedCount = passed.length ∧
      selectedCount = selected.length ∧ selectedCommunityIds.length = selected.length ∧
      selectedReportIds.length = selected.length)
    guard (selectionMatches selected selectedCommunityIds selectedReportIds)
    return ⟨visitedCount, thresholdPassedCount, selectedCount, selectedCommunityIds,
      selectedReportIds, ratings⟩

def isGlobalMapStarted : TypeGuard GlobalMapStartedEvent where
  type := "global_map_started"
  fields event := do
    let batchCount ← (event.get "batch_count").finiteNumber?
    return { batchCount }

def isGlobalMapBatchBuilt : TypeGuard GlobalMapBatchBuiltEvent where
  type := "global_map_batch_built"
  fields event := do
    let batchIndex ← (event.get "batch_index").finiteNumber?
    let reportCount ← (event.get "report_count").finiteNumber?
    let reportIds ← (event.get "report_ids").arrayOf? Js.Value.string?
    let tokensUsed ← (event.get "tokens_used").finiteNumber?
    let tokenBudget ← (event.get "token_budget").finiteNumber?
    let context ← (event.get "context").optionalString?
    return { batchIndex, reportCount, reportIds, tokensUsed, tokenBudget, context }

def isMapPoint (value : Js.Value) : Option GlobalMapPointEvidence := do
  guard value.isObject
  let batchIndex ← (value.get "batch_index").finiteNumber?
  let pointIndex ← (value.get "point_index").finiteNumber?
  let score ← (value.get "score").finiteNumber?
  let answer ← (value.get "answer").optionalString?
  return { batchIndex, pointIndex, score, answer }

def isGlobalMapPointsProduced : TypeGuard GlobalMapPointsProducedEvent where
  type := "global_map_points_produced"
  fields event := do
    let batchIndex ← (event.get "batch_index").finiteNumber?
    let points ← (event.get "points").arrayOf? isMapPoint
    return { batchIndex, points }

def isMapPointDecision (value : Js.Value) : Option GlobalMapPointDecision := do
  let point ← isMapPoint value
  let selected ← (value.get "selected").boolean?
  let reason ← wordOf [("selected", .selected), ("non_positive_score", .nonPositiveScore),
    ("token_budget", .tokenBudget)] (value.get "reason")
  return { point with selected, reason }

def isGlobalReduceContextBuilt : TypeGuard GlobalReduceContextBuiltEvent where
  type := "global_reduce_context_built"
  fields event := do
    let candidatePointCount ← (event.get "candidate_point_count").finiteNumber?
    let positivePointCount ← (event.get "positive_point_count").finiteNumber?
    let selectedPointCount ← (event.get "selected_point_count").finiteNumber?
    let tokenBudget ← (event.get "token_budget").finiteNumber?
    let tokensUsed ← (event.get "tokens_used").finiteNumber?
    let truncated ← (event.get "truncated").boolean?
    let points ← (event.get "points").arrayOf? isMapPointDecision
    let context ← (event.get "context").optionalString?
    return ⟨candidatePointCount, positivePointCount, selectedPointCount, tokenBudget, tokensUsed,
      truncated, points, context⟩

def isGlobalReduceSkipped : TypeGuard GlobalReduceSkippedEvent where
  type := "global_reduce_skipped"
  fields event := do
    let reason ← wordOf [("no_positive_points", .noPositivePoints)] (event.get "reason")
    return { reason }

def isLlmRequestStarted : TypeGuard LlmRequestStartedEvent where
  type := "llm_request_started"
  fields event := do
    let modelId ← (event.get "model_id").string?
    let promptTokens ← (event.get "prompt_tokens").finiteNumber?
    let prompt ← (event.get "prompt").optionalString?
    return { modelId, promptTokens, prompt }

def isLlmRequestCompleted : TypeGuard LlmRequestCompletedEvent where
  type := "llm_request_completed"
  fields event := do
    let modelId ← (event.get "model_id").string?
    let inputTokens ← (event.get "input_tokens").finiteNumber?
    let outputTokens ← (event.get "output_tokens").finiteNumber?
    let elapsedMs ← (event.get "elapsed_ms").finiteNumber?
    let response ← (event.get "response").optionalString?
    return { modelId, inputTokens, outputTokens, elapsedMs, response }

end GraphLoom.Studio.SemanticGlobal
