import GraphLoom.Studio.SemanticBasic
import Mathlib.Data.List.Perm.Basic

/-!
# The Basic timeline is a partition

Every envelope of an ordered list is in one place of its timeline: among the raw events of one step,
once, or among the diagnostics (`buildBasicSemanticTimeline_perm`).
-/

namespace GraphLoom.Studio.SemanticBasic

open Foundation

/-- What is shown and what is not claimed make up the whole. -/
theorem append_filter_perm {α : Type} {xs shown : List α} {claimed : α → Bool} (hxs : xs.Nodup)
    (hshown : shown.Nodup) (hmem : ∀ x ∈ shown, x ∈ xs)
    (hclaimed : ∀ x ∈ xs, claimed x ↔ x ∈ shown) :
    (shown ++ xs.filter fun x => !claimed x).Perm xs := by
  have hfilter : shown.Perm (xs.filter claimed) := by
    rw [List.perm_ext_iff_of_nodup hshown (hxs.filter _)]
    intro x
    rw [List.mem_filter]
    constructor
    · intro hx
      exact ⟨hmem x hx, (hclaimed x (hmem x hx)).mpr hx⟩
    · rintro ⟨hx, hclaim⟩
      exact (hclaimed x hx).mp hclaim
  exact (hfilter.append_right _).trans (List.filter_append_perm claimed xs)

/-! ### The lifecycles are found among the events -/

section Found

variable {events : List ExplainabilityEnvelope}

theorem mem_of_typed_filter {α : Type} {guard : TypeGuard α} {p : TypedEnvelope guard → Bool}
    {x : TypedEnvelope guard} (h : x ∈ (typedEnvelopes guard events).filter p) :
    x.envelope ∈ events :=
  mem_typedEnvelopes.mp (List.mem_filter.mp h).1

theorem mem_of_selectPairLifecycle {α β : Type} {startGuard : TypeGuard α}
    {completionGuard : TypeGuard β} {starts : List (TypedEnvelope startGuard)}
    {completions : List (TypedEnvelope completionGuard)} (cutoff : ℚ) (floor : Option ℚ) :
    (∀ x, (selectPairLifecycle starts completions cutoff floor).started = some x → x ∈ starts) ∧
      ∀ x, (selectPairLifecycle starts completions cutoff floor).completed = some x →
        x ∈ completions := by
  unfold selectPairLifecycle
  dsimp only
  generalize hpair : List.findSome? _ _ = pair
  cases pair with
  | none =>
    refine ⟨fun x hx => (List.mem_filter.mp (mem_of_last hx)).1, fun x hx => ?_⟩
    cases hx
  | some lifecycle =>
    obtain ⟨completed, hmem, hfound⟩ := List.exists_of_findSome?_eq_some hpair
    split at hfound
    · cases hfound
    · obtain ⟨started, hstarted, rfl⟩ := Option.map_eq_some_iff.mp hfound
      constructor
      · intro x hx
        obtain rfl : started = x := Option.some_inj.mp hx
        exact (List.mem_filter.mp (mem_of_last hstarted)).1
      · intro x hx
        obtain rfl : completed = x := Option.some_inj.mp hx
        exact List.mem_reverse.mp hmem

/-- The parts of a context lifecycle come from the lists of budgets, sections and contexts. -/
structure ContextFrom (budgets : Budgets) (sections : Sections) (contexts : Contexts)
    (lifecycle : ContextLifecycle) : Prop where
  budget : ∀ x, lifecycle.budget = some x → x ∈ budgets
  contextSection : ∀ x, lifecycle.contextSection = some x → x ∈ sections
  completed : ∀ x, lifecycle.completed = some x → x ∈ contexts

theorem contextFrom_selectContextLifecycle (budgets : Budgets) (sections : Sections)
    (contexts : Contexts) (filtered : Filtered) (skipped : Skipped) :
    ContextFrom budgets sections contexts
      (selectContextLifecycle budgets sections contexts filtered skipped) := by
  have hbudget : ∀ {contextSection budget}, budgetOf budgets contextSection = some budget →
      budget ∈ budgets := fun h => (List.mem_filter.mp (mem_of_last h)).1
  unfold selectContextLifecycle
  dsimp only
  generalize hcompleted : List.findSome? _ contexts.reverse = completedContext
  generalize hassembled : List.findSome? _ sections.reverse = assembledContext
  cases completedContext with
  | some lifecycle =>
    obtain ⟨completed, hmem, hfound⟩ := List.exists_of_findSome?_eq_some hcompleted
    obtain ⟨contextSection, hsection, hfound⟩ := List.exists_of_findSome?_eq_some hfound
    obtain ⟨budget, hlast, rfl⟩ := Option.map_eq_some_iff.mp hfound
    refine ⟨fun x hx => ?_, fun x hx => ?_, fun x hx => ?_⟩
    · exact Option.some_inj.mp hx ▸ hbudget hlast
    · exact Option.some_inj.mp hx ▸ (List.mem_filter.mp (List.mem_reverse.mp hsection)).1
    · exact Option.some_inj.mp hx ▸ List.mem_reverse.mp hmem
  | none =>
    cases assembledContext with
    | some lifecycle =>
      obtain ⟨contextSection, hsection, hfound⟩ := List.exists_of_findSome?_eq_some hassembled
      split at hfound
      · obtain ⟨budget, hlast, rfl⟩ := Option.map_eq_some_iff.mp hfound
        refine ⟨fun x hx => ?_, fun x hx => ?_, fun x hx => ?_⟩
        · exact Option.some_inj.mp hx ▸ hbudget hlast
        · exact Option.some_inj.mp hx ▸ List.mem_reverse.mp hsection
        · cases hx
      · cases hfound
    | none =>
      refine ⟨fun x hx => mem_of_last hx, fun x hx => ?_, fun x hx => ?_⟩
      · cases hx
      · cases hx

/-- The parts of a retrieval lifecycle come from the lists of candidates, decisions and skips. -/
structure RetrievalFrom (retrieved : Retrieved) (filtered : Filtered) (skipped : Skipped)
    (lifecycle : RetrievalLifecycle) : Prop where
  retrieved : ∀ x, lifecycle.retrieved = some x → x ∈ retrieved
  filtered : ∀ x, lifecycle.filtered = some x → x ∈ filtered
  skipped : ∀ x, lifecycle.skipped = some x → x ∈ skipped

variable {retrieved : Retrieved} {filtered : Filtered} {skipped : Skipped} {cutoff : ℚ}
  {expectedSection : Option ExplainabilityContextSection} {branch : RetrievalBranch}

theorem retrievalFrom_of_mem_branches
    (h : branch ∈ retrievalBranches retrieved filtered skipped cutoff expectedSection) :
    RetrievalFrom retrieved filtered skipped branch.toRetrievalLifecycle := by
  rw [retrievalBranches, List.mem_append, List.mem_append] at h
  obtain (h | h) | h := h
  · obtain ⟨decision, hdecision, hbranch⟩ := List.mem_filterMap.mp h
    split at hbranch
    · obtain ⟨source, hsource, rfl⟩ := Option.map_eq_some_iff.mp hbranch
      refine ⟨fun x hx => ?_, fun x hx => ?_, fun x hx => ?_⟩
      · exact Option.some_inj.mp hx ▸ (List.mem_filter.mp (mem_of_last hsource)).1
      · exact Option.some_inj.mp hx ▸ hdecision
      · cases hx
    · cases hbranch
  · obtain ⟨source, hsource, rfl⟩ := List.mem_map.mp h
    refine ⟨fun x hx => ?_, fun x hx => ?_, fun x hx => ?_⟩
    · exact Option.some_inj.mp hx ▸ (List.mem_filter.mp hsource).1
    · cases hx
    · cases hx
  · obtain ⟨skip, hskip, rfl⟩ := List.mem_map.mp h
    refine ⟨fun x hx => ?_, fun x hx => ?_, fun x hx => ?_⟩
    · cases hx
    · cases hx
    · exact Option.some_inj.mp hx ▸ (List.mem_filter.mp hskip).1

theorem mem_of_latestBranch {branches : List RetrievalBranch}
    (h : latestBranch branches = some branch) : branch ∈ branches :=
  Js.mem_sortBy.mp (mem_of_last h)

theorem mem_of_selectBranch {branches : List RetrievalBranch}
    (h : selectBranch branches expectedSection = some branch) : branch ∈ branches := by
  unfold selectBranch at h
  dsimp only at h
  split_ifs at h
  · exact (List.mem_filter.mp (mem_of_latestBranch h)).1
  · exact (List.mem_filter.mp (mem_of_latestBranch h)).1
  · exact mem_of_latestBranch h

theorem retrievalFrom_selectRetrievalLifecycle :
    RetrievalFrom retrieved filtered skipped
      (selectRetrievalLifecycle retrieved filtered skipped cutoff expectedSection) := by
  unfold selectRetrievalLifecycle
  dsimp only
  generalize hbranch : selectBranch _ _ = branch
  cases branch with
  | none =>
    refine ⟨fun x hx => ?_, fun x hx => ?_, fun x hx => ?_⟩
    all_goals cases hx
  | some branch => exact retrievalFrom_of_mem_branches (mem_of_selectBranch hbranch)

end Found

/-! ### What the lifecycles show -/

variable {raw : ExplainabilityEnvelope}

section Pair

variable {α β : Type} {starts : TypeGuard α} {completions : TypeGuard β}

theorem PairLifecycle.hasTypes_rawEvents (lifecycle : PairLifecycle starts completions) :
    HasTypes [starts.type, completions.type] lifecycle.rawEvents :=
  (hasTypes_option _).append (hasTypes_option _)

theorem PairLifecycle.rawEvents_nodup (lifecycle : PairLifecycle starts completions)
    (h : starts.type ≠ completions.type) : lifecycle.rawEvents.Nodup := by
  refine (Option.toList_nodup _).append (Option.toList_nodup _)
    ((hasTypes_option _).disjoint (hasTypes_option _) ?_)
  simpa using h

theorem PairLifecycle.mem_of_rawEvents {events : List ExplainabilityEnvelope}
    {lifecycle : PairLifecycle starts completions}
    (h : (∀ x, lifecycle.started = some x → x ∈ typedEnvelopes starts events) ∧
      ∀ x, lifecycle.completed = some x → x ∈ typedEnvelopes completions events)
    (hraw : raw ∈ lifecycle.rawEvents) : raw ∈ events := by
  simp only [rawEvents, List.mem_append, Option.mem_toList, Option.map_eq_some_iff] at hraw
  obtain ⟨x, hx, rfl⟩ | ⟨x, hx, rfl⟩ := hraw
  · exact mem_typedEnvelopes.mp (h.1 x hx)
  · exact mem_typedEnvelopes.mp (h.2 x hx)

end Pair

namespace BasicLifecycles

variable {events : List ExplainabilityEnvelope} {lifecycles : BasicLifecycles}

/-- The events of the lifecycles. -/
def shown (lifecycles : BasicLifecycles) : List ExplainabilityEnvelope :=
  lifecycles.embedding.rawEvents ++
    (lifecycles.retrieval.retrieved.map (·.envelope)).toList ++
    (lifecycles.retrieval.skipped.map (·.envelope)).toList ++
    (lifecycles.retrieval.filtered.map (·.envelope)).toList ++
    ((lifecycles.context.budget.map (·.envelope)).toList ++
      (lifecycles.context.contextSection.map (·.envelope)).toList ++
      (lifecycles.context.completed.map (·.envelope)).toList) ++
    lifecycles.llm.rawEvents

theorem steps_perm (lifecycles : BasicLifecycles) (dateParse : String → Option ℚ) :
    ((lifecycles.steps dateParse).flatMap (·.rawEvents)).Perm lifecycles.shown := by
  have hretrieval := Js.sortBy_perm (·.sequence) (lifecycles.embedding.rawEvents ++
    (lifecycles.retrieval.retrieved.map (·.envelope)).toList ++
    (lifecycles.retrieval.skipped.map (·.envelope)).toList)
  have hcontext := (Js.sortBy_perm (·.sequence)
    ((lifecycles.retrieval.filtered.map (·.envelope)).toList ++
      lifecycles.context.rawEvents)).trans (List.Perm.append_left _ (Js.sortBy_perm _ _))
  have hanswer := Js.sortBy_perm (·.sequence) lifecycles.llm.rawEvents
  have happend := (hretrieval.append hcontext).append hanswer
  simpa only [steps, List.flatMap_cons, List.flatMap_nil, List.append_nil,
    BasicSemanticStep.rawEvents, retrievalRaw, contextRaw, answerRaw, shown,
    List.append_assoc] using happend

theorem mem_claimed {sequence : ℚ} :
    sequence ∈ lifecycles.claimed ↔ sequence ∈ lifecycles.shown.map (·.sequence) := by
  simp only [claimed, shown, ContextLifecycle.rawEvents, RetrievalLifecycle.rawEvents,
    List.mem_append, Js.mem_map_sortBy, List.map_append]
  grind

/-- The ten events have ten types. -/
theorem shown_nodup (lifecycles : BasicLifecycles) : lifecycles.shown.Nodup := by
  have hembedding := PairLifecycle.hasTypes_rawEvents lifecycles.embedding
  have hretrieved := hasTypes_option lifecycles.retrieval.retrieved
  have hskipped := hasTypes_option lifecycles.retrieval.skipped
  have hfiltered := hasTypes_option lifecycles.retrieval.filtered
  have hbudget := hasTypes_option lifecycles.context.budget
  have hsection := hasTypes_option lifecycles.context.contextSection
  have hcompleted := hasTypes_option lifecycles.context.completed
  have hllm := PairLifecycle.hasTypes_rawEvents lifecycles.llm
  have hcontext := ((Option.toList_nodup (lifecycles.context.budget.map (·.envelope))).append
    (Option.toList_nodup _) (hbudget.disjoint hsection (by decide))).append
    (Option.toList_nodup _) ((hbudget.append hsection).disjoint hcompleted (by decide))
  have hretrieval := ((PairLifecycle.rawEvents_nodup lifecycles.embedding (by decide)).append
    (Option.toList_nodup _) (hembedding.disjoint hretrieved (by decide))).append
    (Option.toList_nodup _) ((hembedding.append hretrieved).disjoint hskipped (by decide))
  have htypes := (hembedding.append hretrieved).append hskipped
  refine ((hretrieval.append (Option.toList_nodup _) (htypes.disjoint hfiltered (by decide))).append
    hcontext ((htypes.append hfiltered).disjoint ((hbudget.append hsection).append hcompleted)
      (by decide))).append
    (PairLifecycle.rawEvents_nodup lifecycles.llm (by decide)) ?_
  exact ((htypes.append hfiltered).append ((hbudget.append hsection).append hcompleted)).disjoint
    hllm (by decide)

theorem mem_shown : raw ∈ lifecycles.shown ↔ raw ∈ lifecycles.embedding.rawEvents ∨
      (∃ x, lifecycles.retrieval.retrieved = some x ∧ x.envelope = raw) ∨
      (∃ x, lifecycles.retrieval.skipped = some x ∧ x.envelope = raw) ∨
      (∃ x, lifecycles.retrieval.filtered = some x ∧ x.envelope = raw) ∨
      (∃ x, lifecycles.context.budget = some x ∧ x.envelope = raw) ∨
      (∃ x, lifecycles.context.contextSection = some x ∧ x.envelope = raw) ∨
      (∃ x, lifecycles.context.completed = some x ∧ x.envelope = raw) ∨
      raw ∈ lifecycles.llm.rawEvents := by
  simp only [shown, List.mem_append, Option.mem_toList, Option.map_eq_some_iff, or_assoc]

/-- The lifecycles of a list of events show nothing else. -/
theorem mem_of_shown (h : raw ∈ (basicLifecycles events).shown) : raw ∈ events := by
  have hretrieval : RetrievalFrom _ _ _ (basicLifecycles events).retrieval :=
    retrievalFrom_selectRetrievalLifecycle
  have hcontext : ContextFrom _ _ _ (basicLifecycles events).context :=
    contextFrom_selectContextLifecycle _ _ _ _ _
  rw [mem_shown] at h
  obtain h | ⟨x, hx, rfl⟩ | ⟨x, hx, rfl⟩ | ⟨x, hx, rfl⟩ | ⟨x, hx, rfl⟩ | ⟨x, hx, rfl⟩ |
    ⟨x, hx, rfl⟩ | h := h
  · unfold basicLifecycles at h
    dsimp only at h
    split at h
    · exact PairLifecycle.mem_of_rawEvents (mem_of_selectPairLifecycle _ _) h
    · exact absurd h List.not_mem_nil
  · exact mem_of_typed_filter (hretrieval.retrieved x hx)
  · exact mem_typedEnvelopes.mp (hretrieval.skipped x hx)
  · exact mem_of_typed_filter (hretrieval.filtered x hx)
  · exact mem_typedEnvelopes.mp (hcontext.budget x hx)
  · exact mem_of_typed_filter (hcontext.contextSection x hx)
  · exact mem_typedEnvelopes.mp (hcontext.completed x hx)
  · exact PairLifecycle.mem_of_rawEvents (mem_of_selectPairLifecycle _ _) h

end BasicLifecycles

/-! ### The partition -/

theorem sortBy_sequence_eq {envelopes : List ExplainabilityEnvelope}
    (h : SequencesIncrease envelopes) : Js.sortBy (·.sequence) envelopes = envelopes :=
  Js.sortBy_eq_self (h.imp fun hlt => le_of_lt hlt)

theorem buildBasicSemanticTimeline_perm (dateParse : String → Option ℚ)
    (envelopes : List ExplainabilityEnvelope) (hincrease : SequencesIncrease envelopes) :
    ((buildBasicSemanticTimeline dateParse envelopes).steps.flatMap (·.rawEvents) ++
      (buildBasicSemanticTimeline dateParse envelopes).diagnosticEvents).Perm envelopes := by
  unfold buildBasicSemanticTimeline
  dsimp only
  rw [sortBy_sequence_eq hincrease]
  split
  · exact List.Perm.refl _
  · next root hroot =>
    dsimp only
    refine ((BasicLifecycles.steps_perm _ dateParse).append_right _).trans ?_
    have hmem : ∀ raw ∈ (basicLifecycles (eventsUnder envelopes root)).shown, raw ∈ envelopes :=
      fun raw hraw => (List.mem_filter.mp (BasicLifecycles.mem_of_shown hraw)).1
    refine append_filter_perm hincrease.nodup (BasicLifecycles.shown_nodup _) hmem ?_
    intro envelope henvelope
    rw [List.contains_iff_mem, BasicLifecycles.mem_claimed, List.mem_map]
    constructor
    · rintro ⟨raw, hraw, hsequence⟩
      rw [← hincrease.eq_of_sequence_eq (hmem raw hraw) henvelope hsequence]
      exact hraw
    · intro hshown
      exact ⟨envelope, hshown, rfl⟩

end GraphLoom.Studio.SemanticBasic
