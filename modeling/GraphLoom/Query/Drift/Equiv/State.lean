import GraphLoom.Query.Drift.Search

/-!
## Consistency of the DRIFT action graph

* `WellFormed`: ids are positions, `idsByQuery` is the inverse of the queries, edges join nodes.
* `driftQueryState_wellFormed` and `driftQueryState_extends`: every sequence of calls keeps the
  graph well formed, and keeps the nodes with their ids and queries.
* `incompleteIds_append_answeredIds_perm`: an action is either incomplete or answered.

A follow-up only adds incomplete nodes at the end (`Grows`), and a response changes no id or query,
so that each call is a change of one action followed by a growth.
-/

namespace GraphLoom.Query.Drift

open Foundation

variable {ω κ : Type} {s t u : DriftQueryState ω κ}

namespace DriftQueryState

/-- The graph is consistent. -/
structure WellFormed (s : DriftQueryState ω κ) : Prop where
  /-- The id of a node is its position. -/
  ids : ∀ (i : ℕ) (action : DriftAction ω κ), s.nodes[i]? = some action → action.id = i
  /-- The map is the inverse of the queries of the nodes. -/
  inverse : ∀ query i, s.idsByQuery.lookup query = some i ↔ s.query i = some query
  /-- An edge joins two nodes. -/
  edges : ∀ edge ∈ s.edges, edge.source < s.nodes.length ∧ edge.target < s.nodes.length

/-- No node of `s` is removed or renumbered in `t`, or has another query there. -/
def Extends (s t : DriftQueryState ω κ) : Prop :=
  ∀ (i : ℕ) (action : DriftAction ω κ), s.nodes[i]? = some action →
    ∃ action' : DriftAction ω κ, t.nodes[i]? = some action' ∧ action'.id = action.id ∧
      action'.query = action.query

/-- `t` has the nodes of `s`, and after them some that are incomplete. -/
def Grows (s t : DriftQueryState ω κ) : Prop :=
  ∃ fresh : List (DriftAction ω κ), t.nodes = s.nodes ++ fresh ∧ ∀ action ∈ fresh, action.answer = none

/-- The ids of the actions with an answer. -/
def answeredIds (s : DriftQueryState ω κ) : List ℕ :=
  (s.nodes.filter fun action => action.answer.isSome).map DriftAction.id

/-! ### Reading a consistent graph -/

section

variable (h : s.WellFormed)
include h

theorem WellFormed.query_inj {i j : ℕ} {query : String}
    (hi : s.query i = some query) (hj : s.query j = some query) : i = j := by
  have hlookup := (h.inverse query i).mpr hi
  rw [(h.inverse query j).mpr hj] at hlookup
  exact (Option.some.inj hlookup).symm

/-- The queries are pairwise distinct. -/
theorem WellFormed.queries_nodup : (s.nodes.map DriftAction.query).Nodup := by
  rw [List.nodup_iff_getElem?_ne_getElem?]
  intro i j hij hj heq
  have hlt : i < (s.nodes.map DriftAction.query).length := lt_trans hij hj
  have hi : s.query i = some (s.nodes.map DriftAction.query)[i] := by
    rw [query, ← List.getElem?_map, List.getElem?_eq_getElem hlt]
  have hj : s.query j = some (s.nodes.map DriftAction.query)[i] := by
    rw [query, ← List.getElem?_map, ← heq, List.getElem?_eq_getElem hlt]
  have hsame := h.query_inj hi hj
  omega

theorem WellFormed.map_id : s.nodes.map DriftAction.id = List.range s.nodes.length := by
  apply List.ext_getElem?
  intro i
  rw [List.getElem?_map]
  by_cases hi : i < s.nodes.length
  · rw [List.getElem?_eq_getElem hi, List.getElem?_range hi]
    exact congrArg some (h.ids i _ (List.getElem?_eq_getElem hi))
  · rw [List.getElem?_eq_none (not_lt.mp hi), List.getElem?_eq_none]
    · rfl
    · rw [List.length_range]
      exact not_lt.mp hi

/-- An id is incomplete when its action has no answer. -/
theorem WellFormed.mem_incompleteIds {i : ℕ} :
    i ∈ s.incompleteIds ↔ s.nodes[i]?.map DriftAction.answer = some none := by
  rw [incompleteIds, List.mem_map]
  constructor
  · rintro ⟨action, haction, rfl⟩
    obtain ⟨hmem, hanswer⟩ := List.mem_filter.mp haction
    obtain ⟨i, hi⟩ := List.mem_iff_getElem?.mp hmem
    rw [h.ids i action hi, hi, Option.map_some, Option.isNone_iff_eq_none.mp hanswer]
  · intro hanswer
    obtain ⟨action, hi, hnone⟩ := Option.map_eq_some_iff.mp hanswer
    refine ⟨action, List.mem_filter.mpr ⟨List.mem_of_getElem? hi, ?_⟩, h.ids i action hi⟩
    rw [hnone]
    rfl

theorem WellFormed.lt_of_mem_incompleteIds {i : ℕ} (hi : i ∈ s.incompleteIds) :
    i < s.nodes.length := by
  obtain ⟨action, haction, -⟩ := Option.map_eq_some_iff.mp (h.mem_incompleteIds.mp hi)
  exact (List.getElem?_eq_some_iff.mp haction).1

theorem WellFormed.incompleteIds_nodup : s.incompleteIds.Nodup := by
  have hsub : s.incompleteIds.Sublist (s.nodes.map DriftAction.id) :=
    List.filter_sublist.map _
  rw [h.map_id] at hsub
  exact List.nodup_range.sublist hsub

/-- **The incomplete and the answered actions partition the nodes.** -/
theorem WellFormed.incompleteIds_append_answeredIds_perm :
    (s.incompleteIds ++ s.answeredIds).Perm (List.range s.nodes.length) := by
  have hanswered : s.answeredIds =
      (s.nodes.filter fun action => !action.answer.isNone).map DriftAction.id := by
    rw [answeredIds]
    refine congrArg _ (List.filter_congr fun action _ => ?_)
    cases action.answer <;> rfl
  rw [hanswered, incompleteIds, ← List.map_append, ← h.map_id]
  exact (List.filter_append_perm _ s.nodes).map _

end

/-! ### Growing -/

theorem Grows.refl (s : DriftQueryState ω κ) : s.Grows s := by
  refine ⟨[], (List.append_nil _).symm, fun action haction => ?_⟩
  exact absurd haction List.not_mem_nil

theorem Grows.trans (hst : s.Grows t) (htu : t.Grows u) : s.Grows u := by
  obtain ⟨fresh, ht, hfresh⟩ := hst
  obtain ⟨fresh', hu, hfresh'⟩ := htu
  refine ⟨fresh ++ fresh', ?_, fun action haction => ?_⟩
  · rw [hu, ht, List.append_assoc]
  · rcases List.mem_append.mp haction with haction | haction
    · exact hfresh action haction
    · exact hfresh' action haction

theorem Grows.length_le (h : s.Grows t) : s.nodes.length ≤ t.nodes.length := by
  obtain ⟨fresh, ht, -⟩ := h
  rw [ht, List.length_append]
  omega

theorem Grows.getElem? (h : s.Grows t) {i : ℕ} (hi : i < s.nodes.length) :
    t.nodes[i]? = s.nodes[i]? := by
  obtain ⟨fresh, ht, -⟩ := h
  rw [ht, List.getElem?_append_left hi]

/-- A node that is new is incomplete. -/
theorem Grows.answer_of_le (h : s.Grows t) {i : ℕ} (hi : s.nodes.length ≤ i)
    (hlt : i < t.nodes.length) : t.nodes[i]?.map DriftAction.answer = some none := by
  obtain ⟨fresh, ht, hfresh⟩ := h
  rw [List.getElem?_eq_getElem hlt, Option.map_some]
  refine congrArg some (hfresh _ ?_)
  simp only [ht]
  rw [List.getElem_append_right hi]
  exact List.getElem_mem _

theorem Extends.refl (s : DriftQueryState ω κ) : s.Extends s :=
  fun _ action haction => ⟨action, haction, rfl, rfl⟩

theorem Extends.trans (hst : s.Extends t) (htu : t.Extends u) : s.Extends u := by
  intro i action haction
  obtain ⟨action', haction', hid, hquery⟩ := hst i action haction
  obtain ⟨action'', haction'', hid', hquery'⟩ := htu i action' haction'
  exact ⟨action'', haction'', hid'.trans hid, hquery'.trans hquery⟩

theorem Grows.extends (h : s.Grows t) : s.Extends t := by
  intro i action haction
  have hi := (List.getElem?_eq_some_iff.mp haction).1
  exact ⟨action, by rw [h.getElem? hi, haction], rfl, rfl⟩

/-! ### Adding queries -/

variable [Bot ω] [One ω]

omit [One ω] in
/-- The query has the returned id, in a graph that is consistent and has grown. -/
theorem addOrGet_spec (h : s.WellFormed) (query : String) :
    (s.addOrGet query).2.WellFormed ∧ s.Grows (s.addOrGet query).2 ∧
      (s.addOrGet query).1 < (s.addOrGet query).2.nodes.length ∧
      (s.addOrGet query).2.edges = s.edges := by
  unfold addOrGet
  split
  · next id hlookup =>
    refine ⟨h, .refl s, ?_, rfl⟩
    obtain ⟨action, haction, -⟩ := Option.map_eq_some_iff.mp ((h.inverse query id).mp hlookup)
    exact (List.getElem?_eq_some_iff.mp haction).1
  · next hlookup =>
    have hgrows : s.Grows { s with
        idsByQuery := s.idsByQuery.insert query s.nodes.length
        nodes := s.nodes ++ [.incomplete s.nodes.length query] } := by
      refine ⟨_, rfl, fun action haction => ?_⟩
      rw [List.mem_singleton.mp haction]
      rfl
    refine ⟨?_, hgrows, ?_, rfl⟩
    · constructor
      · intro i action haction
        change (s.nodes ++ [_])[i]? = some action at haction
        by_cases hi : i < s.nodes.length
        · rw [List.getElem?_append_left hi] at haction
          exact h.ids i action haction
        · rw [List.getElem?_append_right (not_lt.mp hi), List.getElem?_singleton] at haction
          split at haction
          · obtain rfl := Option.some.inj haction
            show s.nodes.length = i
            omega
          · exact absurd haction.symm (Option.some_ne_none _)
      · intro q i
        change (s.idsByQuery.insert query s.nodes.length).lookup q = some i ↔
          (s.nodes ++ [_])[i]?.map DriftAction.query = some q
        by_cases hq : q = query
        · subst hq
          rw [AList.lookup_insert]
          -- no old node has the query
          have hold : ∀ j, s.query j ≠ some q := by
            intro j hj
            rw [(h.inverse q j).mpr hj] at hlookup
            exact absurd hlookup (Option.some_ne_none _)
          constructor
          · intro hi
            obtain rfl := Option.some.inj hi
            rw [List.getElem?_append_right le_rfl, Nat.sub_self]
            rfl
          · intro hi
            by_cases hlt : i < s.nodes.length
            · rw [List.getElem?_append_left hlt] at hi
              exact absurd hi (hold i)
            · rw [List.getElem?_append_right (not_lt.mp hlt), List.getElem?_singleton] at hi
              split at hi
              · exact congrArg some (by omega)
              · exact absurd hi.symm (Option.some_ne_none _)
        · rw [AList.lookup_insert_ne hq, h.inverse]
          by_cases hlt : i < s.nodes.length
          · rw [List.getElem?_append_left hlt]
            exact Iff.rfl
          · rw [List.getElem?_append_right (not_lt.mp hlt), List.getElem?_singleton, DriftQueryState.query,
              List.getElem?_eq_none (not_lt.mp hlt)]
            split
            · simp [DriftAction.incomplete, Ne.symm hq]
            · rfl
      · intro edge hedge
        have hlt := h.edges edge hedge
        have hle := hgrows.length_le
        exact ⟨lt_of_lt_of_le hlt.1 hle, lt_of_lt_of_le hlt.2 hle⟩
    · show s.nodes.length < (s.nodes ++ [_]).length
      rw [List.length_append]
      exact Nat.lt_succ_self _

theorem addFollowup_spec {source : ℕ} (h : s.WellFormed) (hsource : source < s.nodes.length)
    (followup : String) :
    (addFollowup source s followup).WellFormed ∧ s.Grows (addFollowup source s followup) := by
  obtain ⟨hwf, hgrows, hid, hedges⟩ := addOrGet_spec h followup
  refine ⟨⟨hwf.ids, hwf.inverse, ?_⟩, hgrows⟩
  intro edge hedge
  have hle := hgrows.length_le
  rcases List.mem_append.mp hedge with hedge | hedge
  · exact hwf.edges edge hedge
  · rw [List.mem_singleton.mp hedge]
    exact ⟨lt_of_lt_of_le hsource hle, hid⟩

theorem foldl_addFollowup_spec {source : ℕ} (h : s.WellFormed) (hsource : source < s.nodes.length)
    (followups : List String) :
    (followups.foldl (addFollowup source) s).WellFormed ∧
      s.Grows (followups.foldl (addFollowup source) s) := by
  induction followups generalizing s with
  | nil => exact ⟨h, .refl s⟩
  | cons followup followups ih =>
    obtain ⟨hwf, hgrows⟩ := addFollowup_spec h hsource followup
    obtain ⟨hwf', hgrows'⟩ := ih hwf (lt_of_lt_of_le hsource hgrows.length_le)
    exact ⟨hwf', hgrows.trans hgrows'⟩

/-! ### Changing an action -/

section Update

variable {id : ℕ} {f : DriftAction ω κ → DriftAction ω κ}

omit [Bot ω] [One ω]

theorem updateAction_extends (hid : ∀ action, (f action).id = action.id)
    (hquery : ∀ action, (f action).query = action.query) : s.Extends (s.updateAction id f) := by
  intro i action haction
  change ∃ action', (s.nodes.modify id f)[i]? = some action' ∧ _
  rw [List.getElem?_modify, haction]
  refine ⟨if id = i then f action else action, rfl, ?_, ?_⟩
  · split
    · exact hid action
    · rfl
  · split
    · exact hquery action
    · rfl

theorem query_updateAction (hquery : ∀ action, (f action).query = action.query) (i : ℕ) :
    (s.updateAction id f).query i = s.query i := by
  show (s.nodes.modify id f)[i]?.map DriftAction.query = s.nodes[i]?.map DriftAction.query
  rw [List.getElem?_modify]
  cases s.nodes[i]? with
  | none => rfl
  | some action =>
    show some (DriftAction.query (if id = i then f action else action)) = some action.query
    split
    · rw [hquery]
    · rfl

/-- A change that keeps ids and queries keeps the graph consistent. -/
theorem WellFormed.updateAction (h : s.WellFormed) (hid : ∀ action, (f action).id = action.id)
    (hquery : ∀ action, (f action).query = action.query) : (s.updateAction id f).WellFormed := by
  constructor
  · intro i action haction
    change (s.nodes.modify id f)[i]? = some action at haction
    rw [List.getElem?_modify] at haction
    obtain ⟨action', haction', rfl⟩ := Option.map_eq_some_iff.mp haction
    have hi := h.ids i action' haction'
    split
    · rw [hid, hi]
    · exact hi
  · intro q i
    rw [query_updateAction hquery]
    exact h.inverse q i
  · intro edge hedge
    show edge.source < (s.nodes.modify id f).length ∧ edge.target < (s.nodes.modify id f).length
    rw [List.length_modify]
    exact h.edges edge hedge

theorem length_updateAction : (s.updateAction id f).nodes.length = s.nodes.length :=
  List.length_modify ..

end Update

/-! ### The calls -/

theorem addRoot_spec (h : s.WellFormed) (query answer : String) (score : ω)
    (followups : List String) :
    (s.addRoot query answer score followups).WellFormed ∧
      s.Extends (s.addRoot query answer score followups) := by
  obtain ⟨hwf, hgrows, hid, -⟩ := addOrGet_spec h query
  let f : DriftAction ω κ → DriftAction ω κ := fun action =>
    { action with answer := some answer, score }
  have hwf' : ((s.addOrGet query).2.updateAction (s.addOrGet query).1 f).WellFormed :=
    hwf.updateAction (fun _ => rfl) fun _ => rfl
  have hextends : (s.addOrGet query).2.Extends
      ((s.addOrGet query).2.updateAction (s.addOrGet query).1 f) :=
    updateAction_extends (fun _ => rfl) fun _ => rfl
  have hlt : (s.addOrGet query).1 <
      ((s.addOrGet query).2.updateAction (s.addOrGet query).1 f).nodes.length := by
    rw [length_updateAction]
    exact hid
  obtain ⟨hwf'', hgrows'⟩ := foldl_addFollowup_spec hwf' hlt followups
  exact ⟨hwf'', (hgrows.extends.trans hextends).trans hgrows'.extends⟩

/-- An unknown id is an error, and changes nothing. -/
theorem apply_of_le {id : ℕ} (hid : s.nodes.length ≤ id) (response : DriftActionResponse ω)
    (metadata : DriftActionMetadata κ) :
    s.apply id response metadata = (.error (absentAction "update DRIFT action state" id), s) := by
  rw [apply, ite_cond_eq_false _ _ (eq_false (not_lt.mpr hid))]

/-- The action gets the answer, and new actions are incomplete. -/
theorem apply_spec (h : s.WellFormed) {id : ℕ} (hid : id < s.nodes.length)
    (response : DriftActionResponse ω) (metadata : DriftActionMetadata κ) :
    (s.apply id response metadata).1 = .ok () ∧ (s.apply id response metadata).2.WellFormed ∧
      s.Extends (s.apply id response metadata).2 ∧
      s.nodes.length ≤ (s.apply id response metadata).2.nodes.length ∧
      ∀ i, i ∈ (s.apply id response metadata).2.incompleteIds ↔
        (if i = id then response.answer = none
        else if i < s.nodes.length then i ∈ s.incompleteIds
        else i < (s.apply id response metadata).2.nodes.length) := by
  let f : DriftAction ω κ → DriftAction ω κ := fun action =>
    { action with answer := response.answer, score := response.score, metadata }
  have happly : s.apply id response metadata =
      (.ok (), response.followUpQueries.foldl (addFollowup id) (s.updateAction id f)) := by
    rw [apply, ite_cond_eq_true _ _ (eq_true hid)]
  have hwf' : (s.updateAction id f).WellFormed := h.updateAction (fun _ => rfl) fun _ => rfl
  have hextends : s.Extends (s.updateAction id f) :=
    updateAction_extends (fun _ => rfl) fun _ => rfl
  have hlength : (s.updateAction id f).nodes.length = s.nodes.length := length_updateAction
  have hlt : id < (s.updateAction id f).nodes.length := by
    rw [hlength]
    exact hid
  obtain ⟨hwf, hgrows⟩ := foldl_addFollowup_spec hwf' hlt response.followUpQueries
  have hle := hgrows.length_le
  rw [hlength] at hle
  rw [happly]
  refine ⟨rfl, hwf, hextends.trans hgrows.extends, hle, fun i => ?_⟩
  rw [hwf.mem_incompleteIds]
  by_cases hi : i < s.nodes.length
  · rw [hgrows.getElem? (by rw [hlength]; exact hi)]
    show (s.nodes.modify id f)[i]?.map DriftAction.answer = _ ↔ _
    rw [List.getElem?_modify, List.getElem?_eq_getElem hi]
    split
    · next heq =>
      subst heq
      simp [f]
    · next hne =>
      rw [ite_cond_eq_false _ _ (eq_false (Ne.symm hne)), h.mem_incompleteIds,
        List.getElem?_eq_getElem hi]
      rfl
  · have hne : i ≠ id := by omega
    rw [ite_cond_eq_false _ _ (eq_false hne), ite_cond_eq_false _ _ (eq_false hi)]
    constructor
    · intro hanswer
      obtain ⟨action, haction, -⟩ := Option.map_eq_some_iff.mp hanswer
      exact (List.getElem?_eq_some_iff.mp haction).1
    · intro hlt
      refine hgrows.answer_of_le ?_ hlt
      rw [hlength]
      exact not_lt.mp hi

/-! ### Runs of calls -/

omit [Bot ω] [One ω] in
theorem wellFormed_empty : (empty : DriftQueryState ω κ).WellFormed where
  ids i action haction := by
    rw [show (empty : DriftQueryState ω κ).nodes = [] from rfl, List.getElem?_nil] at haction
    exact absurd haction.symm (Option.some_ne_none _)
  inverse query i := by
    have hlookup : (empty : DriftQueryState ω κ).idsByQuery.lookup query = none :=
      AList.lookup_empty query
    rw [hlookup]
    constructor
    · intro h
      exact absurd h.symm (Option.some_ne_none _)
    · intro h
      exact absurd h.symm (Option.some_ne_none _)
  edges edge hedge := absurd hedge List.not_mem_nil

/-- A call keeps the graph consistent, and keeps its nodes. -/
theorem run_spec (h : s.WellFormed) (call : DriftCall ω κ) :
    (call.run s).WellFormed ∧ s.Extends (call.run s) := by
  cases call with
  | addRoot query answer score followups => exact addRoot_spec h query answer score followups
  | apply id response metadata =>
    show (s.apply id response metadata).2.WellFormed ∧ s.Extends (s.apply id response metadata).2
    by_cases hid : id < s.nodes.length
    · obtain ⟨-, hwf, hextends, -, -⟩ := apply_spec h hid response metadata
      exact ⟨hwf, hextends⟩
    · rw [apply_of_le (not_lt.mp hid)]
      exact ⟨h, .refl s⟩

end DriftQueryState

open DriftQueryState

variable [Bot ω] [One ω]

/-- **The graph is consistent after every sequence of calls.** -/
theorem driftQueryState_wellFormed (h : (driftQueryState ω κ).Reachable s) : s.WellFormed := by
  refine System.Reachable.invariant (fun s hs => ?_) (fun s call t _ hs hstep => ?_) h
  · rw [show s = .empty from hs]
    exact wellFormed_empty
  · rw [show t = call.run s from hstep]
    exact (run_spec hs call).1

/-- **No sequence of calls removes or renumbers a node.** -/
theorem driftQueryState_extends (h : (driftQueryState ω κ).Reachable s)
    {calls : List (DriftCall ω κ)} (hrun : (driftQueryState ω κ).Run s calls t) : s.Extends t := by
  induction hrun with
  | nil => exact .refl s
  | @snoc calls t call u hrun hstep ih =>
    rw [show u = call.run t from hstep]
    exact ih.trans (run_spec (driftQueryState_wellFormed (h.run hrun)) call).2

end GraphLoom.Query.Drift
