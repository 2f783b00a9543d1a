import GraphLoom.Foundation.Greedy
import GraphLoom.Query.Global.Reduce
import Mathlib.Algebra.GroupWithZero.Nat

/-!
# Recording does not change the reduce context

The reduce context has the longest prefix of the ordered points that fits.  Its text and its counts
are the same with and without decisions, and the decisions tell which points it has
(`buildReduceContext_reduced`).
-/

namespace GraphLoom.Query.Global

open Foundation Std

/-! ### The points -/

def ReducePoint.key (point : ReducePoint) : ℕ × ℕ := (point.batchIndex, point.pointIndex)

/-- By batch, then by point. -/
def ReducePoint.Precedes (left right : ReducePoint) : Prop :=
  left.batchIndex < right.batchIndex ∨
    left.batchIndex = right.batchIndex ∧ left.pointIndex < right.pointIndex

/-- All points, in their order. -/
def reducePoints (outputs : List MapSearchResult) : List ReducePoint :=
  outputs.flatMap fun output => output.points.zipIdx.map fun (point, pointIndex) =>
    ⟨output.batchIndex, pointIndex, point⟩

theorem positivePoints_eq (outputs : List MapSearchResult) :
    positivePoints outputs =
      (reducePoints outputs).filter fun point => 0 < point.point.score := by
  unfold positivePoints reducePoints
  rw [List.filter_flatMap]
  simp only [List.filter_map, Function.comp_def]

theorem reducePoints_pairwise (outputs : MapOutputs) :
    (reducePoints outputs.outputs).Pairwise ReducePoint.Precedes := by
  unfold reducePoints
  rw [List.pairwise_flatMap]
  constructor
  · intro output _
    rw [List.pairwise_map]
    exact (zipIdx_pairwise_lt output.points 0).imp fun hlt => .inr ⟨rfl, hlt⟩
  · refine (List.pairwise_map.mp outputs.ordered).imp fun {left right} hlt point hpoint point'
      hpoint' => ?_
    obtain ⟨row, -, rfl⟩ := List.mem_map.mp hpoint
    obtain ⟨row', -, rfl⟩ := List.mem_map.mp hpoint'
    exact .inl hlt

theorem reducePoints_nodup (outputs : MapOutputs) :
    ((reducePoints outputs.outputs).map ReducePoint.key).Nodup := by
  refine List.pairwise_map.mpr ((reducePoints_pairwise outputs).imp fun {left right} h heq => ?_)
  obtain ⟨hbatch, hpoint⟩ := Prod.mk.inj heq
  rcases h with hlt | ⟨-, hlt⟩
  · omega
  · omega

instance compareScores_transCmp : TransCmp compareScores := by
  have hscore : TransCmp fun left right : ReducePoint =>
      compare right.point.score left.point.score :=
    @TransCmp.opposite _ _ (@transCmp_on _ _ compare _ fun point : ReducePoint => point.point.score)
  have hcmp : compareScores = fun left right : ReducePoint =>
      compare right.point.score left.point.score := by
    funext left right
    exact Ordering.then_eq
  rw [hcmp]
  exact hscore

/-- The higher score first, then by batch and point. -/
def ReducePoint.Before (left right : ReducePoint) : Prop :=
  right.point.score < left.point.score ∨
    left.point.score = right.point.score ∧ left.Precedes right

theorem sortedPoints_pairwise (outputs : MapOutputs) :
    (sortedPoints outputs.outputs).Pairwise ReducePoint.Before := by
  have hpositive : (positivePoints outputs.outputs).Pairwise ReducePoint.Precedes := by
    rw [positivePoints_eq]
    exact (reducePoints_pairwise outputs).filter _
  refine (sortBy_pairwise_stable hpositive).imp fun {left right} h => ?_
  unfold compareScores at h
  rw [Ordering.then_eq, compare_lt_iff_lt, Std.compare_eq_iff_eq] at h
  rcases h with hlt | ⟨heq, hprecedes⟩
  · exact .inl hlt
  · exact .inr ⟨heq.symm, hprecedes⟩

/-- The outputs of the map calls are in the order of their batches. -/
theorem runMapCalls_ordered {respond : String → Except QueryError (String × QueryUsageCategory)}
    {parseMapPoints : String → List MapPoint} {batches : List String}
    {outputs : List MapSearchResult} (h : runMapCalls respond parseMapPoints batches = .ok outputs) :
    (outputs.map (·.batchIndex)).Pairwise (· < ·) := by
  have hindex : ∀ (item : String × ℕ) output,
      runMapCall respond parseMapPoints item.2 item.1 = .ok output → output.batchIndex = item.2 := by
    intro item output houtput
    obtain ⟨answer, -, houtput⟩ := bind_eq_ok.mp houtput
    obtain rfl := Except.ok.inj houtput
    rfl
  exact List.pairwise_map.mpr
    (pairwise_of_results hindex (mapM_eq_ok_iff.mp h) (zipIdx_pairwise_lt batches 0))

/-! ### The decisions -/

section Decisions

variable {points taken : List ReducePoint} {captureContent : Bool}

/-- The decision about a point, with the points that have been taken. -/
def decisionOf (captureContent : Bool) (taken : List ReducePoint) (point : ReducePoint) :
    ReducePointDecision where
  batchIndex := point.batchIndex
  pointIndex := point.pointIndex
  score := point.point.score
  selected := point ∈ taken
  reason := if point ∈ taken then .selected
    else if 0 < point.point.score then .tokenBudget else .nonPositiveScore
  answer := if captureContent then some point.point.answer else none

/-- The positions lead to the points of the list. -/
def Positioned (points : List ReducePoint) (positions : DecisionPositions) : Prop :=
  ∀ index point, points[index]? = some point → positions.get point.key = some index

theorem initialDecisions_eq (outputs : List MapSearchResult) (captureContent : Bool) :
    initialDecisions outputs true captureContent =
      (reducePoints outputs).foldl (fun state point =>
        pushDecision captureContent point.batchIndex state (point.point, point.pointIndex))
          ([], []) := by
  unfold initialDecisions reducePoints
  rw [if_pos rfl, List.foldl_flatMap]
  simp only [List.foldl_map]

theorem foldl_pushDecision (hnodup : (points.map ReducePoint.key).Nodup) :
    ∃ positions, points.foldl (fun state point =>
        pushDecision captureContent point.batchIndex state (point.point, point.pointIndex))
          ([], []) = (points.map (decisionOf captureContent []), positions) ∧
      Positioned points positions := by
  induction points using List.reverseRecOn with
  | nil => exact ⟨[], rfl, fun index point h => nomatch h⟩
  | append_singleton points point ih =>
    rw [List.map_append, List.map_singleton] at hnodup
    obtain ⟨hnodup, -, hdisjoint⟩ := List.nodup_append.mp hnodup
    obtain ⟨positions, hfold, hpositions⟩ := ih hnodup
    refine ⟨positions.set point.key points.length, ?_, ?_⟩
    · rw [List.foldl_append, hfold, List.foldl_cons, List.foldl_nil, pushDecision,
        List.map_append, List.map_singleton, List.length_map]
      simp only [decisionOf, List.not_mem_nil, decide_false, if_false]
      rfl
    · intro index point' hget
      rw [InsertionMap.get_set]
      rw [List.getElem?_append] at hget
      split_ifs at hget with hlt
      · -- an earlier point has another key
        have hne : ¬ point'.key = point.key := fun heq =>
          hdisjoint _ (List.mem_map_of_mem (List.mem_of_getElem? hget)) _
            (List.mem_singleton_self _) heq
        rw [if_neg hne]
        exact hpositions index point' hget
      · obtain ⟨hindex, rfl⟩ := List.getElem?_eq_some_iff.mp hget
        rw [List.length_singleton] at hindex
        rw [List.getElem_singleton, if_pos rfl]
        congr 1
        omega

theorem markSelected_eq {positions : DecisionPositions} (hpositions : Positioned points positions)
    {point : ReducePoint} (hmem : point ∈ points) :
    markSelected positions point (points.map (decisionOf captureContent taken)) =
      points.map (decisionOf captureContent (taken ++ [point])) := by
  obtain ⟨index, hindex⟩ := List.mem_iff_getElem?.mp hmem
  have hget : positions.get (point.batchIndex, point.pointIndex) = some index :=
    hpositions index point hindex
  unfold markSelected
  rw [hget]
  dsimp only
  ext1 i
  rw [List.getElem?_modify, List.getElem?_map, List.getElem?_map]
  by_cases hi : index = i
  · subst hi
    simp [hindex, decisionOf]
  · simp only [hi, if_false]
    cases hpoint : points[i]? with
    | none => rfl
    | some other =>
      -- another position has another point
      have hne : other ≠ point := by
        rintro rfl
        have hother := hpositions i other hpoint
        rw [hpositions index other hindex] at hother
        exact hi (Option.some.inj hother)
      simp [decisionOf, hne]

theorem foldl_markSelected_eq {positions : DecisionPositions}
    (hpositions : Positioned points positions) {chosen : List ReducePoint}
    (hchosen : ∀ point ∈ chosen, point ∈ points) :
    chosen.foldl (fun decisions point => markSelected positions point decisions)
        (points.map (decisionOf captureContent taken)) =
      points.map (decisionOf captureContent (taken ++ chosen)) := by
  induction chosen generalizing taken with
  | nil => rw [List.foldl_nil, List.append_nil]
  | cons point chosen ih =>
    rw [List.foldl_cons, markSelected_eq hpositions (hchosen point (List.mem_cons_self ..)),
      ih fun other hother => hchosen other (List.mem_cons_of_mem _ hother), List.append_assoc,
      List.singleton_append]

end Decisions

/-! ### The loop -/

section Loop

variable {tokenizer : Tokenizer} {maxTokens : ℕ} {positions : DecisionPositions}

def tokenCount (tokenizer : Tokenizer) (text : String) : ℕ :=
  match tokenizer.count text with
  | .ok tokens => tokens
  | .error _ => 0

/-- The tokens of the points, as many as a `usize` holds. -/
def pointTokens (tokenizer : Tokenizer) (points : List ReducePoint) : ℕ :=
  min usizeMax (points.map fun point => tokenCount tokenizer point.text).sum

theorem tokenCount_of_countReduce {text : String} {tokens : ℕ}
    (h : countReduce tokenizer text = .ok tokens) : tokenCount tokenizer text = tokens := by
  unfold countReduce at h
  unfold tokenCount
  cases hcount : tokenizer.count text with
  | error message =>
    rw [hcount] at h
    cases h
  | ok counted =>
    rw [hcount] at h
    exact Except.ok.inj h

theorem pointTokens_concat (points : List ReducePoint) (point : ReducePoint) :
    pointTokens tokenizer (points ++ [point]) =
      usizeAdd (pointTokens tokenizer points) (tokenCount tokenizer point.text) := by
  unfold pointTokens usizeAdd
  rw [List.map_append, List.sum_append, List.map_singleton, List.sum_singleton]
  omega

/-- The loop takes the longest prefix of the rest that fits. -/
theorem reduceLoop_longest {rest before : List ReducePoint} {state final : ReduceState}
    (htokens : state.tokens = pointTokens tokenizer before) (htruncated : state.truncated = false)
    (h : reduceLoop tokenizer maxTokens positions rest state = .ok final) :
    ∃ count, LongestPrefix (fun i => pointTokens tokenizer (before ++ rest.take i) ≤ maxTokens)
        rest.length count ∧
      final.selected = state.selected ++ (rest.take count).map ReducePoint.text ∧
      final.tokens = pointTokens tokenizer (before ++ rest.take count) ∧
      (final.truncated = true ↔ count < rest.length) ∧
      final.decisions = (rest.take count).foldl
        (fun decisions point => markSelected positions point decisions) state.decisions := by
  induction rest generalizing before state with
  | nil =>
    obtain rfl := Except.ok.inj h
    refine ⟨0, .nil, ?_, ?_, ?_, rfl⟩
    · rw [List.take_nil, List.map_nil, List.append_nil]
    · rw [List.take_nil, List.append_nil, htokens]
    · rw [htruncated]
      simp
  | cons point rest ih =>
    rw [reduceLoop] at h
    obtain ⟨tokens, hcount, h⟩ := bind_eq_ok.mp h
    have hnext : usizeAdd state.tokens tokens = pointTokens tokenizer (before ++ [point]) := by
      rw [pointTokens_concat, htokens, tokenCount_of_countReduce hcount]
    have htake : ∀ i, before ++ (point :: rest).take (i + 1) = before ++ [point] ++ rest.take i := by
      intro i
      rw [List.take_succ_cons, List.append_assoc, List.singleton_append]
    by_cases hover : maxTokens < usizeAdd state.tokens tokens
    · rw [if_pos hover] at h
      obtain rfl := Except.ok.inj h
      refine ⟨0, .stop ?_, ?_, ?_, ?_, rfl⟩
      · show ¬ pointTokens tokenizer (before ++ [point]) ≤ maxTokens
        rw [← hnext]
        exact Nat.not_le_of_lt hover
      · rw [List.take_zero, List.map_nil, List.append_nil]
      · rw [List.take_zero, List.append_nil]
        exact htokens
      · exact iff_of_true rfl (by rw [List.length_cons]; omega)
    · rw [if_neg hover] at h
      obtain ⟨count, hlongest, hselected, hfinal, hstop, hdecisions⟩ :=
        ih (by exact hnext) (by exact htruncated) h
      refine ⟨count + 1, .step ?_ (hlongest.congr fun i => by rw [htake]), ?_, ?_, ?_, ?_⟩
      · show pointTokens tokenizer (before ++ [point]) ≤ maxTokens
        rw [← hnext]
        exact Nat.le_of_not_lt hover
      · rw [hselected, List.take_succ_cons, List.map_cons, List.append_assoc, List.singleton_append]
      · rw [hfinal, htake]
      · rw [hstop, List.length_cons]
        omega
      · rw [hdecisions, List.take_succ_cons, List.foldl_cons]

def ReduceState.shown (state : ReduceState) : ReduceState := { state with decisions := [] }

/-- The decisions have no part in what the loop shows. -/
theorem reduceLoop_shown {positions' : DecisionPositions} {rest : List ReducePoint}
    {state state' : ReduceState} (h : state.shown = state'.shown) :
    (reduceLoop tokenizer maxTokens positions rest state).map ReduceState.shown =
      (reduceLoop tokenizer maxTokens positions' rest state').map ReduceState.shown := by
  induction rest generalizing state state' with
  | nil => exact congrArg Except.ok h
  | cons point rest ih =>
    obtain ⟨-, hselected, htokens, htruncated⟩ := ReduceState.mk.inj h
    rw [reduceLoop, reduceLoop, htokens]
    cases countReduce tokenizer point.text with
    | error error => rfl
    | ok tokens =>
      show Except.map _ (if _ then _ else _) = Except.map _ (if _ then _ else _)
      split_ifs
      · show Except.ok _ = Except.ok _
        rw [ReduceState.shown, hselected]
        rfl
      · refine ih ?_
        unfold ReduceState.shown
        rw [hselected, htruncated]

end Loop

/-! ### The context -/

section Context

variable {outputs : MapOutputs} {maxTokens : ℕ} {tokenizer : Tokenizer}
  {captureDecisions captureContent : Bool}

/-- What the reduce prompt and the answer are made from. -/
def GlobalReduceContextResult.shown (result : GlobalReduceContextResult) :
    GlobalReduceContextResult :=
  { result with candidateCount := 0, decisions := [] }

/-- The result has the longest prefix of the ordered points that fits, and the decisions tell it. -/
structure Reduced (outputs : MapOutputs) (maxTokens : ℕ) (tokenizer : Tokenizer)
    (captureDecisions captureContent : Bool) (result : GlobalReduceContextResult) : Prop where
  longest : LongestPrefix
    (fun i => pointTokens tokenizer ((sortedPoints outputs.outputs).take i) ≤ maxTokens)
    (sortedPoints outputs.outputs).length result.selectedCount
  text : result.text = "\n\n".intercalate
    (((sortedPoints outputs.outputs).take result.selectedCount).map ReducePoint.text)
  tokensUsed : result.tokensUsed =
    pointTokens tokenizer ((sortedPoints outputs.outputs).take result.selectedCount)
  truncated : result.truncated = true ↔
    result.selectedCount < (sortedPoints outputs.outputs).length
  hasPositivePoints : result.hasPositivePoints = true ↔
    ∃ point ∈ reducePoints outputs.outputs, 0 < point.point.score
  decisions : captureDecisions = true → result.decisions =
    (reducePoints outputs.outputs).map
      (decisionOf captureContent ((sortedPoints outputs.outputs).take result.selectedCount))

/-- The result of the loop's last state. -/
def resultOf (points : List ReducePoint) (candidateCount : ℕ) (state : ReduceState) :
    GlobalReduceContextResult where
  text := "\n\n".intercalate state.selected
  hasPositivePoints := !points.isEmpty
  candidateCount := candidateCount
  positiveCount := points.length
  selectedCount := state.selected.length
  tokensUsed := state.tokens
  truncated := state.truncated
  decisions := state.decisions

theorem buildReduceContext_eq (outputs : List MapSearchResult) :
    buildReduceContext outputs maxTokens tokenizer captureDecisions captureContent =
      (reduceLoop tokenizer maxTokens (initialDecisions outputs captureDecisions captureContent).2
        (sortedPoints outputs)
        ⟨(initialDecisions outputs captureDecisions captureContent).1, [], 0, false⟩).map
          (resultOf (sortedPoints outputs)
            (initialDecisions outputs captureDecisions captureContent).1.length) := by
  unfold buildReduceContext
  generalize initialDecisions outputs captureDecisions captureContent = initial
  dsimp only
  cases reduceLoop tokenizer maxTokens initial.2 (sortedPoints outputs)
    ⟨initial.1, [], 0, false⟩ <;> rfl

theorem shown_resultOf {points : List ReducePoint} {candidateCount candidateCount' : ℕ}
    {state state' : ReduceState} (h : state.shown = state'.shown) :
    (resultOf points candidateCount state).shown = (resultOf points candidateCount' state').shown := by
  obtain ⟨-, hselected, htokens, htruncated⟩ := ReduceState.mk.inj h
  unfold resultOf GlobalReduceContextResult.shown
  rw [hselected, htokens, htruncated]

/-- The captured decisions do not change what is shown. -/
theorem buildReduceContext_shown (captureDecisions captureContent captureDecisions'
    captureContent' : Bool) :
    (buildReduceContext outputs.outputs maxTokens tokenizer captureDecisions captureContent).map
        GlobalReduceContextResult.shown =
      (buildReduceContext outputs.outputs maxTokens tokenizer captureDecisions'
        captureContent').map GlobalReduceContextResult.shown := by
  have hloop := @reduceLoop_shown tokenizer maxTokens
    (initialDecisions outputs.outputs captureDecisions captureContent).2
    (initialDecisions outputs.outputs captureDecisions' captureContent').2
    (sortedPoints outputs.outputs)
    ⟨(initialDecisions outputs.outputs captureDecisions captureContent).1, [], 0, false⟩
    ⟨(initialDecisions outputs.outputs captureDecisions' captureContent').1, [], 0, false⟩ rfl
  rw [buildReduceContext_eq, buildReduceContext_eq]
  revert hloop
  generalize reduceLoop tokenizer maxTokens _ _ _ = final
  generalize reduceLoop tokenizer maxTokens _ _ _ = final'
  intro hloop
  cases final with
  | error error =>
    cases final' with
    | error error' => exact congrArg Except.error (Except.error.inj hloop)
    | ok state' => cases hloop
  | ok state =>
    cases final' with
    | error error' => cases hloop
    | ok state' => exact congrArg Except.ok (shown_resultOf (Except.ok.inj hloop))

theorem mem_sortedPoints {point : ReducePoint} :
    point ∈ sortedPoints outputs.outputs ↔
      point ∈ reducePoints outputs.outputs ∧ 0 < point.point.score := by
  unfold sortedPoints
  rw [mem_sortBy, positivePoints_eq, List.mem_filter, decide_eq_true_iff]

theorem buildReduceContext_longest {result : GlobalReduceContextResult}
    (h : buildReduceContext outputs.outputs maxTokens tokenizer captureDecisions captureContent =
      .ok result) :
    Reduced outputs maxTokens tokenizer captureDecisions captureContent result := by
  rw [buildReduceContext_eq] at h
  obtain ⟨final, hloop, rfl⟩ := map_eq_ok.mp h
  unfold resultOf
  obtain ⟨count, hlongest, hselected, htokens, htruncated, hdecisions⟩ :=
    @reduceLoop_longest _ _ _ _ [] _ _ rfl rfl hloop
  simp only [List.nil_append] at hlongest hselected htokens
  have hcount : final.selected.length = count := by
    rw [hselected, List.length_map, List.length_take, min_eq_left hlongest.le]
  refine ⟨?_, ?_, ?_, ?_, ?_, ?_⟩
  · rw [hcount]
    exact hlongest
  · rw [hcount, hselected]
  · rw [hcount, htokens]
  · rw [hcount]
    exact htruncated
  · show (!(sortedPoints outputs.outputs).isEmpty) = true ↔ _
    rw [Bool.not_eq_true', List.isEmpty_eq_false_iff_exists_mem]
    refine exists_congr fun point => ?_
    rw [mem_sortedPoints]
  · rintro rfl
    rw [hcount]
    obtain ⟨positions, hfold, hpositions⟩ :=
      @foldl_pushDecision _ captureContent (reducePoints_nodup outputs)
    rw [← initialDecisions_eq] at hfold
    show final.decisions = _
    rw [hdecisions, hfold]
    refine foldl_markSelected_eq hpositions fun point hpoint => ?_
    exact (mem_sortedPoints.mp (List.mem_of_mem_take hpoint)).1

/-- The ordered points are the positive ones, what is shown does not depend on what is captured, and
it is the longest prefix of them that fits, which the decisions tell. -/
theorem buildReduceContext_reduced (outputs : MapOutputs) (maxTokens : ℕ) (tokenizer : Tokenizer) :
    (sortedPoints outputs.outputs).Perm
      ((reducePoints outputs.outputs).filter fun point => 0 < point.point.score) ∧
    (sortedPoints outputs.outputs).Pairwise ReducePoint.Before ∧
    (∀ captureDecisions captureContent captureDecisions' captureContent',
      (buildReduceContext outputs.outputs maxTokens tokenizer captureDecisions captureContent).map
          GlobalReduceContextResult.shown =
        (buildReduceContext outputs.outputs maxTokens tokenizer captureDecisions'
          captureContent').map GlobalReduceContextResult.shown) ∧
    ∀ captureDecisions captureContent result,
      buildReduceContext outputs.outputs maxTokens tokenizer captureDecisions captureContent =
        .ok result →
      Reduced outputs maxTokens tokenizer captureDecisions captureContent result := by
  refine ⟨?_, sortedPoints_pairwise outputs, buildReduceContext_shown, ?_⟩
  · rw [← positivePoints_eq]
    exact sortBy_perm
  · intro captureDecisions captureContent result h
    exact buildReduceContext_longest h

/-- A tokenizer that counts characters. -/
def characterTokenizer : Tokenizer := .ofMeasure String.length

def sampleOutputs : MapOutputs :=
  ⟨[⟨0, "", [⟨"The cafe opens at six.", 80⟩, ⟨"Nothing.", 0⟩], "", .none⟩], by decide⟩

theorem buildReduceContext_reduced_sample :
    ∃ result, buildReduceContext sampleOutputs.outputs 100 characterTokenizer true true =
        .ok result ∧ result.selectedCount = 1 ∧
      Reduced sampleOutputs 100 characterTokenizer true true result := by
  have hrun : ∃ result, buildReduceContext sampleOutputs.outputs 100 characterTokenizer true true =
      .ok result ∧ result.selectedCount = 1 := by
    refine ⟨⟨"----Analyst 1----\nImportance Score: 80\nThe cafe opens at six.", true, 2, 1, 1, 61,
      false, [⟨0, 0, 80, true, .selected, some "The cafe opens at six."⟩,
        ⟨0, 1, 0, false, .nonPositiveScore, some "Nothing."⟩]⟩, ?_, rfl⟩
    decide +kernel
  obtain ⟨result, hresult, hcount⟩ := hrun
  exact ⟨result, hresult, hcount,
    (buildReduceContext_reduced sampleOutputs 100 characterTokenizer).2.2.2 _ _ _ hresult⟩

end Context

end GraphLoom.Query.Global
