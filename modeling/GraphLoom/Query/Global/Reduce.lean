import GraphLoom.Foundation.Comparators
import GraphLoom.Foundation.InsertionMap
import GraphLoom.Query.ContextTable

/-!
# The reduce context of a global search

The points of the map answers, the best first, as many as the budget takes.  With explainability a
decision about each point is recorded on the way.
-/

namespace GraphLoom.Query.Global

open Foundation

structure MapPoint where
  answer : String
  score : ℤ
deriving DecidableEq, Repr

structure MapSearchResult where
  batchIndex : ℕ
  rawResponse : String
  points : List MapPoint
  context : String
  usage : QueryUsageCategory
deriving DecidableEq, Repr

/-! ### The map calls -/

/-- The outputs of the map calls, which come in the order of their batches. -/
structure MapOutputs where
  outputs : List MapSearchResult
  ordered : (outputs.map (·.batchIndex)).Pairwise (· < ·)

section MapCalls

-- the model's answer to a batch with its usage, and the points of an answer
variable (respond : String → Except QueryError (String × QueryUsageCategory))
  (parseMapPoints : String → List MapPoint)

def runMapCall (batchIndex : ℕ) (context : String) : Except QueryError MapSearchResult := do
  let (rawResponse, usage) ← respond context
  return ⟨batchIndex, rawResponse, parseMapPoints rawResponse, context, usage⟩

/-- The calls of the batches, whose results are in order. -/
def runMapCalls (batches : List String) : Except QueryError (List MapSearchResult) :=
  batches.zipIdx.mapM fun (context, index) => runMapCall respond parseMapPoints index context

end MapCalls

/-! ### Decisions -/

inductive GlobalMapPointDecisionReason where
  | selected
  | nonPositiveScore
  | tokenBudget
deriving DecidableEq, Repr

structure ReducePointDecision where
  batchIndex : ℕ
  pointIndex : ℕ
  score : ℤ
  selected : Bool
  reason : GlobalMapPointDecisionReason
  answer : Option String
deriving DecidableEq, Repr

/-- The positions of the decisions, by batch and point. -/
abbrev DecisionPositions := InsertionMap (ℕ × ℕ) ℕ

def pushDecision (captureContent : Bool) (batchIndex : ℕ)
    (state : List ReducePointDecision × DecisionPositions) (point : MapPoint × ℕ) :
    List ReducePointDecision × DecisionPositions :=
  (state.1 ++ [{
      batchIndex
      pointIndex := point.2
      score := point.1.score
      selected := false
      reason := if 0 < point.1.score then .tokenBudget else .nonPositiveScore
      answer := if captureContent then some point.1.answer else none }],
    state.2.set (batchIndex, point.2) state.1.length)

def initialDecisions (outputs : List MapSearchResult) (captureDecisions captureContent : Bool) :
    List ReducePointDecision × DecisionPositions :=
  if captureDecisions then
    outputs.foldl (fun state output =>
      output.points.zipIdx.foldl (pushDecision captureContent output.batchIndex) state) ([], [])
  else ([], [])

/-! ### Selection -/

structure ReducePoint where
  batchIndex : ℕ
  pointIndex : ℕ
  point : MapPoint
deriving DecidableEq, Repr

def ReducePoint.text (point : ReducePoint) : String :=
  "----Analyst " ++ toString (point.batchIndex + 1) ++ "----\nImportance Score: " ++
    toString point.point.score ++ "\n" ++ point.point.answer

def positivePoints (outputs : List MapSearchResult) : List ReducePoint :=
  outputs.flatMap fun output =>
    (output.points.zipIdx.filter fun (point, _) => 0 < point.score).map fun (point, pointIndex) =>
      ⟨output.batchIndex, pointIndex, point⟩

/-- The higher score first. -/
def compareScores (left right : ReducePoint) : Ordering :=
  (compare right.point.score left.point.score).then .eq

def sortedPoints (outputs : List MapSearchResult) : List ReducePoint :=
  sortBy compareScores (positivePoints outputs)

structure ReduceState where
  decisions : List ReducePointDecision
  selected : List String
  tokens : ℕ
  truncated : Bool
deriving DecidableEq, Repr

/-- `decision.selected = true`, where the point has a decision. -/
def markSelected (positions : DecisionPositions) (point : ReducePoint)
    (decisions : List ReducePointDecision) : List ReducePointDecision :=
  match positions.get (point.batchIndex, point.pointIndex) with
  | some index =>
    decisions.modify index fun decision => { decision with selected := true, reason := .selected }
  | none => decisions

def countReduce (tokenizer : Tokenizer) (text : String) : Except QueryError ℕ :=
  contextError .global "count Global reduce point tokens" (tokenizer.count text)

def reduceLoop (tokenizer : Tokenizer) (maxTokens : ℕ) (positions : DecisionPositions) :
    List ReducePoint → ReduceState → Except QueryError ReduceState
  | [], state => .ok state
  | point :: rest, state => do
    let pointTokens ← countReduce tokenizer point.text
    if maxTokens < usizeAdd state.tokens pointTokens then
      return { state with truncated := true }
    else
      reduceLoop tokenizer maxTokens positions rest {
        decisions := markSelected positions point state.decisions
        selected := state.selected ++ [point.text]
        tokens := usizeAdd state.tokens pointTokens
        truncated := state.truncated }

structure GlobalReduceContextResult where
  text : String
  hasPositivePoints : Bool
  candidateCount : ℕ
  positiveCount : ℕ
  selectedCount : ℕ
  tokensUsed : ℕ
  truncated : Bool
  decisions : List ReducePointDecision
deriving DecidableEq, Repr

def buildReduceContext (outputs : List MapSearchResult) (maxTokens : ℕ) (tokenizer : Tokenizer)
    (captureDecisions captureContent : Bool) : Except QueryError GlobalReduceContextResult := do
  let (decisions, positions) := initialDecisions outputs captureDecisions captureContent
  let candidateCount := decisions.length
  let points := sortedPoints outputs
  let state ← reduceLoop tokenizer maxTokens positions points ⟨decisions, [], 0, false⟩
  return {
    text := "\n\n".intercalate state.selected
    hasPositivePoints := !points.isEmpty
    candidateCount
    positiveCount := points.length
    selectedCount := state.selected.length
    tokensUsed := state.tokens
    truncated := state.truncated
    decisions := state.decisions }

end GraphLoom.Query.Global
