import GraphLoom.Foundation.FirstSeen
import GraphLoom.Query.Global.Dynamic
import Mathlib.Data.List.Perm.Subperm

/-!
## The traversal of dynamic community selection

* `selectExplainable_isSome`: the traversal terminates, within as many waves as there are reports.
* `selectExplainable_sound`: each community is rated at most once, the ratings that are marked
  selected are those of the returned reports, and what is returned passed the threshold.

The ratings, the rest of the wave and the next wave are together the communities that were queued,
without repetition (`Holds`); everything else follows by looking at one rating (`Holds.recordVote`).
-/

namespace GraphLoom.Query.Global

open Foundation DynamicCommunitySelection

variable {ν : Type} {communityId : String} {vote : CommunityVote ν}

namespace DynamicCommunitySelection

variable (sel : DynamicCommunitySelection ν)

/-- The decimal id of the parent of a community. -/
def parentId (communityId : String) : Option String :=
  (sel.communitiesById.lookup communityId).map fun community => toString community.parent

/-- The rating of a community, by its report. -/
def IsVote (communityId : String) (vote : CommunityVote ν) : Prop :=
  ∃ report, sel.reportsById.lookup communityId = some report ∧
    sel.rateCommunity communityId report = .ok vote

/-- The community has a rating that reaches the threshold. -/
def Passes (communityId : String) : Prop :=
  ∃ vote, sel.IsVote communityId vote ∧ sel.config.dynamicSearchThreshold ≤ vote.selectedRating

/-- The children of a community that have reports. -/
def childrenIds (communityId : String) : List String :=
  match sel.communitiesById.lookup communityId with
  | some community =>
    (community.children.map toString).filter fun child => (sel.reportsById.lookup child).isSome
  | none => []

variable {sel}

theorem IsVote.unique {vote vote' : CommunityVote ν}
    (h : sel.IsVote communityId vote) (h' : sel.IsVote communityId vote') : vote = vote' := by
  obtain ⟨report, hreport, hvote⟩ := h
  obtain ⟨report', hreport', hvote'⟩ := h'
  rw [hreport] at hreport'
  obtain rfl := Option.some.inj hreport'
  rw [hvote] at hvote'
  exact Except.ok.inj hvote'

/-- A community with a vote passes when the vote reaches the threshold. -/
theorem IsVote.passes_iff (h : sel.IsVote communityId vote) :
    sel.Passes communityId ↔ sel.config.dynamicSearchThreshold ≤ vote.selectedRating := by
  constructor
  · rintro ⟨vote', hvote', hle⟩
    rwa [h.unique hvote']
  · intro hle
    exact ⟨vote, h, hle⟩

theorem rateQueue_spec {queue : List String} {votes : List (CommunityVote ν)}
    (h : sel.rateQueue queue = .ok votes) : List.Forall₂ sel.IsVote queue votes := by
  refine (mapM_eq_ok_iff.mp h).imp fun communityId vote hvote => ?_
  unfold rateReport at hvote
  split at hvote
  · next report hreport => exact ⟨report, hreport, hvote⟩
  · cases hvote

/-- The calls of a queue run concurrently; whenever they end well, their votes are those of the
queue, in its order. -/
theorem rateQueue_concurrent {queue : List String} {limit : ℕ}
    {s : TryBuffered String QueryError (CommunityVote ν)}
    (h : (tryBuffered sel.rateReport limit queue).Reachable s)
    {outcome : Except QueryError (List (CommunityVote ν))} (hreturned : s.returned = some outcome)
    (votes : List (CommunityVote ν)) : outcome = .ok votes ↔ sel.rateQueue queue = .ok votes :=
  tryBuffered_returned h hreturned votes

/-! ### Levels -/

variable {levels : AList fun _ : ℤ => List String} {community : Community}

/-- What a community that joins its level changes. -/
theorem mem_addToLevel {level : ℤ} :
    communityId ∈ ((sel.addToLevel levels community).lookup level).getD [] ↔
      communityId ∈ (levels.lookup level).getD [] ∨
        (community.level = level ∧ community.shortId = communityId ∧
          (sel.reportsById.lookup communityId).isSome) := by
  unfold addToLevel
  by_cases hreport : (sel.reportsById.lookup community.shortId).isSome = true
  · rw [ite_cond_eq_true _ _ (eq_true hreport)]
    simp only
    split
    · next hmem =>
      -- the id is there already
      constructor
      · exact Or.inl
      · rintro (h | ⟨rfl, rfl, -⟩)
        · exact h
        · exact hmem
    · by_cases hlevel : level = community.level
      · subst hlevel
        rw [AList.lookup_insert, Option.getD_some, List.mem_append, List.mem_singleton]
        constructor
        · rintro (h | rfl)
          · exact Or.inl h
          · exact Or.inr ⟨rfl, rfl, hreport⟩
        · rintro (h | ⟨-, rfl, -⟩)
          · exact Or.inl h
          · exact Or.inr rfl
      · rw [AList.lookup_insert_ne hlevel]
        constructor
        · exact Or.inl
        · rintro (h | ⟨rfl, -⟩)
          · exact h
          · exact absurd rfl hlevel
  · rw [ite_cond_eq_false _ _ (eq_false hreport)]
    constructor
    · exact Or.inl
    · rintro (h | ⟨-, rfl, h⟩)
      · exact h
      · exact absurd h hreport

/-- The levels hold the communities that have reports. -/
theorem mem_levels {level : ℤ} : communityId ∈ (sel.levels.lookup level).getD [] ↔
      ∃ community ∈ sel.communities, community.level = level ∧ community.shortId = communityId ∧
        (sel.reportsById.lookup communityId).isSome := by
  unfold levels
  induction sel.communities using List.reverseRecOn with
  | nil =>
    have hnone : (∅ : AList fun _ : ℤ => List String).lookup level = none := AList.lookup_empty _
    rw [List.foldl_nil, hnone]
    simp
  | append_singleton communities last ih =>
    rw [List.foldl_append, List.foldl_cons, List.foldl_nil, mem_addToLevel, ih]
    simp only [List.mem_append, List.mem_singleton, or_and_right, exists_or, exists_eq_left]

/-- A level is not empty and holds no community twice. -/
theorem addToLevel_nodup
    (h : ∀ level ids, levels.lookup level = some ids → ids ≠ [] ∧ ids.Nodup) (level : ℤ)
    (ids : List String) (hids : (sel.addToLevel levels community).lookup level = some ids) :
    ids ≠ [] ∧ ids.Nodup := by
  unfold addToLevel at hids
  split at hids
  · simp only at hids
    split at hids
    · exact h level ids hids
    · next hmem =>
      by_cases hlevel : level = community.level
      · rw [hlevel, AList.lookup_insert, Option.some_inj] at hids
        rw [← hids, List.nodup_append_comm, List.singleton_append, List.nodup_cons]
        refine ⟨by simp, hmem, ?_⟩
        cases hlookup : levels.lookup community.level with
        | none => exact List.nodup_nil
        | some known => exact (h _ known hlookup).2
      · rw [AList.lookup_insert_ne hlevel] at hids
        exact h level ids hids
  · exact h level ids hids

theorem levels_nodup : ∀ level ids, sel.levels.lookup level = some ids → ids ≠ [] ∧ ids.Nodup := by
  unfold levels
  induction sel.communities using List.reverseRecOn with
  | nil => exact fun level ids hids => nomatch (AList.lookup_empty level).symm.trans hids
  | append_singleton communities last ih =>
    rw [List.foldl_append, List.foldl_cons, List.foldl_nil]
    exact addToLevel_nodup ih

end DynamicCommunitySelection

/-! ### Queueing -/

/-- The ids that are new, once each. -/
def freshIds (queued ids : List String) : List String :=
  (ids.filter fun id => id ∉ queued).eraseDups

variable {id : String} {queued ids : List String}

theorem mem_freshIds : id ∈ freshIds queued ids ↔ id ∈ ids ∧ id ∉ queued := by
  rw [freshIds, List.mem_eraseDups, List.mem_filter, decide_eq_true_eq]

theorem freshIds_cons_of_mem (h : id ∈ queued) :
    freshIds queued (id :: ids) = freshIds queued ids := by
  rw [freshIds, List.filter_cons_of_neg (by simpa using h)]
  rfl

theorem freshIds_cons_of_notMem (h : id ∉ queued) :
    freshIds queued (id :: ids) = id :: freshIds (queued ++ [id]) ids := by
  rw [freshIds, List.filter_cons_of_pos (by simpa using h), List.eraseDups_cons, freshIds,
    List.filter_filter]
  refine congrArg (fun xs => id :: List.eraseDups xs) (List.filter_congr fun id' _ => ?_)
  by_cases hid : id' = id <;> simp [hid]

namespace Traversal

/-- The communities that are rated. -/
def rated (s : Traversal ν) : List String := s.ratings.map DynamicRating.communityId

/-- Queue ids that are not queued yet. -/
def enqueueFresh (s : Traversal ν) (ids : List String) : Traversal ν :=
  { s with
    queuedOrVisited := s.queuedOrVisited ++ freshIds s.queuedOrVisited ids
    nextQueue := s.nextQueue ++ freshIds s.queuedOrVisited ids }

theorem foldl_enqueue (s : Traversal ν) (ids : List String) :
    ids.foldl enqueue s = s.enqueueFresh ids := by
  induction ids generalizing s with
  | nil =>
    show s = { s with queuedOrVisited := s.queuedOrVisited ++ [], nextQueue := s.nextQueue ++ [] }
    rw [List.append_nil, List.append_nil]
  | cons id ids ih =>
    rw [List.foldl_cons, ih, enqueue]
    split
    · next h => rw [enqueueFresh, enqueueFresh, freshIds_cons_of_mem h]
    · next h =>
      rw [enqueueFresh, enqueueFresh, freshIds_cons_of_notMem h]
      simp only [List.append_assoc, List.singleton_append]

variable {sel : DynamicCommunitySelection ν}

theorem foldl_enqueueChild (s : Traversal ν) (children : List ℤ) :
    children.foldl (enqueueChild sel) s = s.enqueueFresh
      ((children.map toString).filter fun child => (sel.reportsById.lookup child).isSome) := by
  rw [← foldl_enqueue]
  induction children generalizing s with
  | nil => rfl
  | cons child children ih =>
    rw [List.foldl_cons, ih, enqueueChild, List.map_cons]
    split
    · next h => rw [List.filter_cons, ite_cond_eq_true _ _ (eq_true h), List.foldl_cons]
    · next h => rw [List.filter_cons, ite_cond_eq_false _ _ (eq_false h)]

/-- A community that passes loses its parent, and queues its children. -/
theorem expand_eq (s : Traversal ν) (communityId : String) :
    s.expand sel communityId =
      ({ s with relevant :=
          if sel.config.dynamicSearchKeepParent then s.relevant
          else s.relevant.filter fun id => sel.parentId communityId ≠ some id } : Traversal ν).enqueueFresh
        (sel.childrenIds communityId) := by
  unfold expand childrenIds parentId
  cases sel.communitiesById.lookup communityId with
  | none =>
    simp only [Option.map_none, ne_eq, reduceCtorEq, not_false_eq_true, decide_true,
      List.filter_true, ite_self]
    exact foldl_enqueue s []
  | some community =>
    simp only [foldl_enqueueChild]
    congr 1
    by_cases hkeep : sel.config.dynamicSearchKeepParent = true
    · simp only [hkeep, ↓reduceIte]
    · simp only [hkeep, Bool.false_eq_true, ↓reduceIte, Option.map_some]
      congr 1
      refine List.filter_congr fun id _ => ?_
      simp [eq_comm]

/-- The rating that a vote is recorded as. -/
def rating (sel : DynamicCommunitySelection ν) (s : Traversal ν) (communityId : String)
    (vote : CommunityVote ν) : DynamicRating ν where
  communityId
  selectedRating := vote.selectedRating
  repeatedRatings := vote.repeatedRatings
  selected := false
  level := (sel.communitiesById.lookup communityId).elim s.traversalLevel Community.level

theorem recordVote_of_lt (s : Traversal ν)
    (h : ¬ sel.config.dynamicSearchThreshold ≤ vote.selectedRating) :
    s.recordVote sel (communityId, vote) =
      { s with
        usage := s.usage.saturatingAdd vote.usage
        ratings := s.ratings ++ [s.rating sel communityId vote] } := by
  unfold recordVote
  simp only
  rw [ite_cond_eq_false _ _ (eq_false h)]
  rfl

theorem recordVote_of_le (s : Traversal ν)
    (h : sel.config.dynamicSearchThreshold ≤ vote.selectedRating)
    (hrelevant : communityId ∉ s.relevant) :
    s.recordVote sel (communityId, vote) =
      { s with
        nextQueue := s.nextQueue ++ freshIds s.queuedOrVisited (sel.childrenIds communityId)
        queuedOrVisited :=
          s.queuedOrVisited ++ freshIds s.queuedOrVisited (sel.childrenIds communityId)
        relevant :=
          if sel.config.dynamicSearchKeepParent then s.relevant ++ [communityId]
          else (s.relevant ++ [communityId]).filter fun id => sel.parentId communityId ≠ some id
        relevantFirstSeen := s.relevantFirstSeen ++ [communityId]
        usage := s.usage.saturatingAdd vote.usage
        ratings := s.ratings ++ [s.rating sel communityId vote] } := by
  unfold recordVote
  simp only
  rw [ite_cond_eq_true _ _ (eq_true h), expand_eq, markRelevant,
    ite_cond_eq_false _ _ (eq_false hrelevant)]
  rfl

/-! ### What holds during a wave -/

/-- What holds when `rest` is left of the wave. -/
structure Holds (sel : DynamicCommunitySelection ν) (s : Traversal ν) (rest : List String) :
    Prop where
  /-- No community is queued twice. -/
  nodup : (s.rated ++ rest ++ s.nextQueue).Nodup
  queued : ∀ id, id ∈ s.queuedOrVisited ↔ id ∈ s.rated ++ rest ++ s.nextQueue
  reports : ∀ id ∈ s.queuedOrVisited, (sel.reportsById.lookup id).isSome
  votes : ∀ rating ∈ s.ratings, ∃ vote, sel.IsVote rating.communityId vote ∧
    rating.selectedRating = vote.selectedRating
  firstSeen : s.relevantFirstSeen = (s.ratings.filter fun rating =>
    sel.config.dynamicSearchThreshold ≤ rating.selectedRating).map DynamicRating.communityId
  relevant : ∀ id ∈ s.relevant, id ∈ s.relevantFirstSeen
  /-- The parent of a community that passes after it is taken out. -/
  parents : sel.config.dynamicSearchKeepParent = false →
    s.ratings.Pairwise fun parent child => sel.Passes child.communityId →
      sel.parentId child.communityId = some parent.communityId →
        parent.communityId ∉ s.relevant
  /-- Only the parent of a community that passes is taken out. -/
  kept : ∀ rating ∈ s.ratings, sel.Passes rating.communityId → rating.communityId ∉ s.relevant →
    sel.config.dynamicSearchKeepParent = false ∧
      ∃ child ∈ s.ratings, sel.Passes child.communityId ∧
        sel.parentId child.communityId = some rating.communityId

variable {s : Traversal ν} {rest : List String}

theorem Holds.passes_iff (h : Holds sel s rest) {rating : DynamicRating ν}
    (hrating : rating ∈ s.ratings) : sel.Passes rating.communityId ↔
      sel.config.dynamicSearchThreshold ≤ rating.selectedRating := by
  obtain ⟨vote, hvote, heq⟩ := h.votes rating hrating
  rw [hvote.passes_iff, heq]

/-- What was seen as relevant is a rating that passes. -/
theorem Holds.mem_firstSeen (h : Holds sel s rest) : id ∈ s.relevantFirstSeen ↔
      ∃ rating ∈ s.ratings, rating.communityId = id ∧ sel.Passes rating.communityId := by
  rw [h.firstSeen, List.mem_map]
  constructor
  · rintro ⟨rating, hrating, rfl⟩
    obtain ⟨hmem, hle⟩ := List.mem_filter.mp hrating
    exact ⟨rating, hmem, rfl, (h.passes_iff hmem).mpr (of_decide_eq_true hle)⟩
  · rintro ⟨rating, hmem, rfl, hpasses⟩
    exact ⟨rating, List.mem_filter.mpr ⟨hmem, decide_eq_true ((h.passes_iff hmem).mp hpasses)⟩, rfl⟩

theorem Holds.rated_of_relevant (h : Holds sel s rest) (hid : id ∈ s.relevant) : id ∈ s.rated := by
  obtain ⟨rating, hrating, rfl, -⟩ := h.mem_firstSeen.mp (h.relevant id hid)
  exact List.mem_map_of_mem hrating

/-- A community that is rated is neither rated before nor relevant. -/
theorem Holds.head_fresh (h : Holds sel s (communityId :: rest)) :
    communityId ∉ s.rated ∧ communityId ∉ s.relevant := by
  have hnotMem : communityId ∉ s.rated := by
    have hnodup := h.nodup
    rw [List.append_assoc] at hnodup
    intro hmem
    exact (List.nodup_append.mp hnodup).2.2 _ hmem _ (List.mem_cons_self ..) rfl
  exact ⟨hnotMem, fun hmem => hnotMem (h.rated_of_relevant hmem)⟩

theorem freshIds_nodup (queued ids : List String) : (freshIds queued ids).Nodup :=
  nodup_eraseDups _

theorem mem_childrenIds_isSome {communityId child : String}
    (h : child ∈ sel.childrenIds communityId) : (sel.reportsById.lookup child).isSome := by
  unfold childrenIds at h
  split at h
  · exact (List.mem_filter.mp h).2
  · exact absurd h List.not_mem_nil

/-- One rating. -/
theorem Holds.recordVote
    (h : Holds sel s (communityId :: rest)) (hvote : sel.IsVote communityId vote) :
    Holds sel (s.recordVote sel (communityId, vote)) rest := by
  obtain ⟨hnotRated, hnotRelevant⟩ := h.head_fresh
  have hpasses := hvote.passes_iff
  -- the new rating
  have hvotes : ∀ rating ∈ s.ratings ++ [s.rating sel communityId vote],
      ∃ vote, sel.IsVote rating.communityId vote ∧ rating.selectedRating = vote.selectedRating := by
    intro rating hrating
    rcases List.mem_append.mp hrating with hrating | hrating
    · exact h.votes rating hrating
    · rw [List.mem_singleton.mp hrating]
      exact ⟨vote, hvote, rfl⟩
  have hrated : (s.ratings ++ [s.rating sel communityId vote]).map DynamicRating.communityId =
      s.rated ++ [communityId] := by
    rw [List.map_append]
    rfl
  have horder : ∀ xs : List String,
      s.rated ++ [communityId] ++ rest ++ xs = s.rated ++ communityId :: rest ++ xs := by
    intro xs
    simp only [List.append_assoc, List.singleton_append]
  have hne : ∀ rating ∈ s.ratings, rating.communityId ≠ communityId := by
    intro rating hrating heq
    exact hnotRated (heq ▸ List.mem_map_of_mem hrating)
  by_cases hle : sel.config.dynamicSearchThreshold ≤ vote.selectedRating
  · rw [recordVote_of_le s hle hnotRelevant]
    have hpass : sel.Passes communityId := hpasses.mpr hle
    -- what the community leaves of the relevant ones
    have hrelevant : ∀ id, id ∈ (if sel.config.dynamicSearchKeepParent then
        s.relevant ++ [communityId] else
        (s.relevant ++ [communityId]).filter fun id => sel.parentId communityId ≠ some id) ↔
        (id ∈ s.relevant ∨ id = communityId) ∧
          (sel.config.dynamicSearchKeepParent = false → sel.parentId communityId ≠ some id) := by
      intro id
      cases sel.config.dynamicSearchKeepParent <;> simp [or_and_right]
    constructor
    · show (_ ++ rest ++ (s.nextQueue ++ _)).Nodup
      rw [rated, hrated, horder, ← List.append_assoc]
      refine List.nodup_append.mpr ⟨h.nodup, freshIds_nodup _ _, ?_⟩
      rintro id hid _ hid' rfl
      exact (mem_freshIds.mp hid').2 ((h.queued id).mpr hid)
    · intro id
      show id ∈ s.queuedOrVisited ++ _ ↔ id ∈ _ ++ rest ++ (s.nextQueue ++ _)
      rw [rated, hrated, horder, ← List.append_assoc]
      exact List.mem_append.trans ((or_congr_left (h.queued id)).trans List.mem_append.symm)
    · intro id hid
      rcases List.mem_append.mp hid with hid | hid
      · exact h.reports id hid
      · exact mem_childrenIds_isSome (mem_freshIds.mp hid).1
    · exact hvotes
    · show s.relevantFirstSeen ++ [communityId] = _
      rw [h.firstSeen, List.filter_append, List.map_append, List.filter_cons_of_pos]
      · rfl
      · exact decide_eq_true hle
    · intro id hid
      rcases ((hrelevant id).mp hid).1 with hid | rfl
      · exact List.mem_append_left _ (h.relevant id hid)
      · exact List.mem_append_right _ (List.mem_singleton_self _)
    · intro hkeep
      refine List.pairwise_append.mpr ⟨?_, List.pairwise_singleton _ _, ?_⟩
      · -- a rated community does not come back
        refine (h.parents hkeep).imp_of_mem fun hparent _ hnot hchild heq hmem => ?_
        rcases ((hrelevant _).mp hmem).1 with hmem | hmem
        · exact hnot hchild heq hmem
        · exact hne _ hparent hmem
      · intro parent hparent child hchild _ heq hmem
        rw [List.mem_singleton.mp hchild] at heq
        exact ((hrelevant _).mp hmem).2 hkeep heq
    · intro rating hrating hpass' hnotMem
      have hnotMem' : ¬ ((rating.communityId ∈ s.relevant ∨ rating.communityId = communityId) ∧
          (sel.config.dynamicSearchKeepParent = false →
            sel.parentId communityId ≠ some rating.communityId)) :=
        fun hmem => hnotMem ((hrelevant _).mpr hmem)
      by_cases hparent : sel.config.dynamicSearchKeepParent = false ∧
          sel.parentId communityId = some rating.communityId
      · refine ⟨hparent.1, _, List.mem_append_right _ (List.mem_singleton_self _), hpass, hparent.2⟩
      · have hcond : sel.config.dynamicSearchKeepParent = false →
            sel.parentId communityId ≠ some rating.communityId :=
          fun hkeep heq => hparent ⟨hkeep, heq⟩
        have hnot := not_or.mp fun hor => hnotMem' ⟨hor, hcond⟩
        rcases List.mem_append.mp hrating with hrating | hrating
        · obtain ⟨hkeep, child, hchild, hchildPass, heq⟩ := h.kept rating hrating hpass' hnot.1
          exact ⟨hkeep, child, List.mem_append_left _ hchild, hchildPass, heq⟩
        · exact absurd (congrArg DynamicRating.communityId (List.mem_singleton.mp hrating)) hnot.2
  · rw [recordVote_of_lt s hle]
    have hpass : ¬ sel.Passes communityId := fun hpass => hle (hpasses.mp hpass)
    constructor
    · show (_ ++ rest ++ s.nextQueue).Nodup
      rw [rated, hrated, horder]
      exact h.nodup
    · intro id
      show id ∈ s.queuedOrVisited ↔ id ∈ _ ++ rest ++ s.nextQueue
      rw [rated, hrated, horder]
      exact h.queued id
    · exact h.reports
    · exact hvotes
    · show s.relevantFirstSeen = _
      rw [h.firstSeen, List.filter_append, List.filter_cons_of_neg, List.filter_nil, List.append_nil]
      exact fun hle' => hle (of_decide_eq_true hle')
    · exact h.relevant
    · intro hkeep
      refine List.pairwise_append.mpr ⟨h.parents hkeep, List.pairwise_singleton _ _, ?_⟩
      intro parent _ child hchild hchildPass
      rw [List.mem_singleton.mp hchild] at hchildPass
      exact absurd hchildPass hpass
    · intro rating hrating hpass' hnotMem
      rcases List.mem_append.mp hrating with hrating | hrating
      · obtain ⟨hkeep, child, hchild, hchildPass, heq⟩ := h.kept rating hrating hpass' hnotMem
        exact ⟨hkeep, child, List.mem_append_left _ hchild, hchildPass, heq⟩
      · rw [List.mem_singleton.mp hrating] at hpass'
        exact absurd hpass' hpass

/-! ### Waves -/

/-- What every vote of a wave keeps, the wave keeps. -/
theorem foldl_recordVote_invariant {P : Traversal ν → List String → Prop}
    (hstep : ∀ s communityId rest vote, P s (communityId :: rest) → sel.IsVote communityId vote →
      P (s.recordVote sel (communityId, vote)) rest)
    {ids : List String} {votes : List (CommunityVote ν)} (hvotes : List.Forall₂ sel.IsVote ids votes)
    (h : P s ids) : P ((ids.zip votes).foldl (Traversal.recordVote sel) s) [] := by
  induction hvotes generalizing s with
  | nil => exact h
  | cons hvote _ ih => exact ih (hstep _ _ _ _ h hvote)

/-- The end of a wave. -/
def turn (sel : DynamicCommunitySelection ν) (s : Traversal ν) : Traversal ν :=
  let s := ({ s with traversalLevel := saturatingAdd s.traversalLevel 1 } : Traversal ν).fallback sel
  { s with queue := s.nextQueue, nextQueue := [] }

variable {t : Traversal ν}

theorem wave_eq_ok (h : s.wave sel = .ok t) : ∃ votes, List.Forall₂ sel.IsVote s.queue votes ∧
      t = ((s.queue.zip votes).foldl (Traversal.recordVote sel) s).turn sel := by
  obtain ⟨votes, hvotes, ht⟩ := bind_eq_ok.mp h
  exact ⟨votes, rateQueue_spec hvotes, (Except.ok.inj ht).symm⟩

/-- Queueing communities with reports. -/
theorem Holds.enqueueFresh (h : Holds sel s []) {ids : List String}
    (hids : ∀ id ∈ ids, (sel.reportsById.lookup id).isSome) : Holds sel (s.enqueueFresh ids) [] where
  nodup := by
    show (s.rated ++ [] ++ (s.nextQueue ++ _)).Nodup
    rw [← List.append_assoc]
    refine List.nodup_append.mpr ⟨h.nodup, freshIds_nodup _ _, ?_⟩
    rintro id hid _ hid' rfl
    exact (mem_freshIds.mp hid').2 ((h.queued id).mpr hid)
  queued id := by
    show id ∈ s.queuedOrVisited ++ _ ↔ id ∈ s.rated ++ [] ++ (s.nextQueue ++ _)
    rw [← List.append_assoc]
    exact List.mem_append.trans ((or_congr_left (h.queued id)).trans List.mem_append.symm)
  reports id hid := by
    rcases List.mem_append.mp hid with hid | hid
    · exact h.reports id hid
    · exact hids id (mem_freshIds.mp hid).1
  votes := h.votes
  firstSeen := h.firstSeen
  relevant := h.relevant
  parents := h.parents
  kept := h.kept

theorem isSome_of_mem_levels {level : ℤ}
    (h : id ∈ (sel.levels.lookup level).getD []) : (sel.reportsById.lookup id).isSome := by
  obtain ⟨-, -, -, -, hsome⟩ := mem_levels.mp h
  exact hsome

theorem Holds.fallback (h : Holds sel s []) : Holds sel (s.fallback sel) [] := by
  unfold Traversal.fallback
  split
  · rw [foldl_enqueue]
    exact h.enqueueFresh fun id hid => isSome_of_mem_levels hid
  · exact h

theorem Holds.turn (h : Holds sel s []) : Holds sel (s.turn sel) (s.turn sel).queue := by
  have hlevel : Holds sel { s with traversalLevel := saturatingAdd s.traversalLevel 1 } [] :=
    ⟨h.nodup, h.queued, h.reports, h.votes, h.firstSeen, h.relevant, h.parents, h.kept⟩
  have hfallback := hlevel.fallback
  constructor
  · have hnodup := hfallback.nodup
    rw [List.append_nil] at hnodup
    show (_ ++ _ ++ []).Nodup
    rw [List.append_nil]
    exact hnodup
  · intro id
    have hqueued := hfallback.queued id
    rw [List.append_nil] at hqueued
    show _ ↔ id ∈ _ ++ _ ++ []
    rw [List.append_nil]
    exact hqueued
  · exact hfallback.reports
  · exact hfallback.votes
  · exact hfallback.firstSeen
  · exact hfallback.relevant
  · exact hfallback.parents
  · exact hfallback.kept

theorem turn_ratings (s : Traversal ν) : (s.turn sel).ratings = s.ratings := by
  show (Traversal.fallback sel _).ratings = s.ratings
  unfold Traversal.fallback
  split
  · rw [foldl_enqueue]
    rfl
  · rfl

/-- One wave. -/
theorem Holds.wave (h : Holds sel s s.queue) (hwave : s.wave sel = .ok t) :
    Holds sel t t.queue ∧ t.ratings.length = s.ratings.length + s.queue.length := by
  obtain ⟨votes, hvotes, rfl⟩ := wave_eq_ok hwave
  have hholds := foldl_recordVote_invariant (P := Holds sel)
    (fun _ _ _ _ hs hvote => hs.recordVote hvote) hvotes h
  have hlength : ((s.queue.zip votes).foldl (Traversal.recordVote sel) s).ratings.length +
      ([] : List String).length = s.ratings.length + s.queue.length :=
    foldl_recordVote_invariant
      (P := fun s' rest => s'.ratings.length + rest.length = s.ratings.length + s.queue.length)
      (fun s' communityId rest vote hs _ => by
        have hone : (s'.recordVote sel (communityId, vote)).ratings.length =
            s'.ratings.length + 1 := by
          by_cases hle : sel.config.dynamicSearchThreshold ≤ vote.selectedRating
          · unfold Traversal.recordVote
            simp only [List.length_append, List.length_singleton]
            rw [ite_cond_eq_true _ _ (eq_true hle), expand_eq]
            unfold markRelevant
            split <;> rfl
          · rw [recordVote_of_lt s' hle]
            exact List.length_append
        rw [List.length_cons] at hs
        omega) hvotes rfl
  refine ⟨hholds.turn, ?_⟩
  rw [turn_ratings]
  exact hlength

/-! ### The traversal -/

theorem traverse_of_nil (fuel : ℕ) (h : s.queue = []) : traverse sel fuel s = some (.ok s) := by
  unfold traverse
  rw [ite_cond_eq_true _ _ (eq_true h)]

theorem traverse_succ (fuel : ℕ) (h : s.queue ≠ []) : traverse sel (fuel + 1) s =
    match s.wave sel with
    | .ok s => traverse sel fuel s
    | .error error => some (.error error) := by
  rewrite [traverse, ite_cond_eq_false _ _ (eq_false h)]
  rfl

/-- What every wave keeps, the traversal keeps to its end, where the queue is empty. -/
theorem traverse_invariant {P : Traversal ν → Prop}
    (hstep : ∀ s t, P s → s.queue ≠ [] → s.wave sel = .ok t → P t) {fuel : ℕ}
    (h : P s) (ht : traverse sel fuel s = some (.ok t)) : P t ∧ t.queue = [] := by
  induction fuel generalizing s with
  | zero =>
    unfold traverse at ht
    split at ht
    · next hnil =>
      obtain rfl := Except.ok.inj (Option.some.inj ht)
      exact ⟨h, hnil⟩
    · cases ht
  | succ fuel ih =>
    by_cases hnil : s.queue = []
    · rw [traverse_of_nil _ hnil] at ht
      obtain rfl := Except.ok.inj (Option.some.inj ht)
      exact ⟨h, hnil⟩
    · rw [traverse_succ fuel hnil] at ht
      cases hwave : s.wave sel with
      | ok s' =>
        rw [hwave] at ht
        exact ih (hstep s s' h hnil hwave) ht
      | error error =>
        rw [hwave] at ht
        cases ht

/-- No more communities are rated than there are reports. -/
theorem Holds.length_le (h : Holds sel s rest) : s.ratings.length ≤ sel.reports.length := by
  have hnodup : s.rated.Nodup := by
    have hnodup := h.nodup
    rw [List.append_assoc] at hnodup
    exact (List.nodup_append.mp hnodup).1
  have hsub : s.rated ⊆ sel.reports.map CommunityReport.communityId := by
    intro id hid
    have hqueued : id ∈ s.queuedOrVisited := by
      rw [h.queued, List.append_assoc]
      exact List.mem_append_left _ hid
    obtain ⟨report, hreport⟩ := Option.isSome_iff_exists.mp (h.reports id hqueued)
    obtain ⟨hmem, rfl⟩ := of_lookup_indexBy hreport
    exact List.mem_map_of_mem hmem
  have hlength := (hnodup.subperm hsub).length_le
  rwa [rated, List.length_map, List.length_map] at hlength

/-- Every wave rates a community, so that as many waves as there are reports are enough. -/
theorem traverse_isSome {fuel : ℕ} (h : Holds sel s s.queue)
    (hfuel : sel.reports.length < fuel + s.ratings.length) : (traverse sel fuel s).isSome := by
  induction fuel generalizing s with
  | zero =>
    have hle := h.length_le
    omega
  | succ fuel ih =>
    by_cases hnil : s.queue = []
    · rw [traverse_of_nil _ hnil]
      rfl
    · rw [traverse_succ fuel hnil]
      cases hwave : s.wave sel with
      | ok s' =>
        obtain ⟨hholds, hlength⟩ := h.wave hwave
        have hpos := List.length_pos_iff.mpr hnil
        exact ih hholds (by omega)
      | error error => rfl

theorem Holds.start {starting : List String} (h : sel.levels.lookup 0 = some starting) :
    Holds sel (.start starting) starting where
  nodup := by
    show ([] ++ starting ++ []).Nodup
    rw [List.nil_append, List.append_nil]
    exact (levels_nodup 0 starting h).2
  queued id := by
    show id ∈ starting ↔ id ∈ [] ++ starting ++ []
    rw [List.nil_append, List.append_nil]
  reports id hid := by
    have hmem : id ∈ (sel.levels.lookup 0).getD [] := by
      rw [h]
      exact hid
    exact isSome_of_mem_levels hmem
  votes _ hrating := absurd hrating List.not_mem_nil
  firstSeen := rfl
  relevant _ hid := absurd hid List.not_mem_nil
  parents _ := List.Pairwise.nil
  kept _ hrating := absurd hrating List.not_mem_nil

end Traversal

/-! ### The selection -/

open Traversal

variable {sel : DynamicCommunitySelection ν} {fuel : ℕ} {result : DynamicSelectionResult ν}

/-- **The selection terminates**, on every hierarchy. -/
theorem selectExplainable_isSome (h : sel.reports.length < fuel) :
    (sel.selectExplainable fuel).isSome := by
  unfold selectExplainable
  cases hstart : sel.levels.lookup 0 with
  | none => rfl
  | some starting =>
    have hfuel : sel.reports.length < fuel + 0 := by omega
    have hsome := traverse_isSome (Holds.start hstart) hfuel
    obtain ⟨outcome, houtcome⟩ := Option.isSome_iff_exists.mp hsome
    simp only [houtcome]
    cases outcome <;> rfl

/-- A selection that ends well comes from a traversal that ends with an empty queue. -/
theorem selectExplainable_eq_ok (h : sel.selectExplainable fuel = some (.ok result)) :
    ∃ starting s, sel.levels.lookup 0 = some starting ∧
      traverse sel fuel (.start starting) = some (.ok s) ∧ result = s.finish sel := by
  unfold selectExplainable at h
  cases hstart : sel.levels.lookup 0 with
  | none =>
    rw [hstart] at h
    cases h
  | some starting =>
    rw [hstart] at h
    simp only at h
    cases htraverse : traverse sel fuel (.start starting) with
    | none =>
      rw [htraverse] at h
      cases h
    | some outcome =>
      rw [htraverse] at h
      cases outcome with
      | error error => cases h
      | ok s => exact ⟨starting, s, rfl, htraverse, (Except.ok.inj (Option.some.inj h)).symm⟩

/-- The reports that are returned, by their community ids. -/
theorem Traversal.Holds.finish_ids {s : Traversal ν} (h : Holds sel s []) :
    (s.finish sel).reports.map CommunityReport.communityId =
      s.relevantFirstSeen.filter (· ∈ s.relevant) := by
  show ((s.relevantFirstSeen.filter (· ∈ s.relevant)).filterMap
    fun communityId => sel.reportsById.lookup communityId).map CommunityReport.communityId = _
  have hreports : ∀ id ∈ s.relevantFirstSeen.filter (· ∈ s.relevant),
      ∃ report, sel.reportsById.lookup id = some report ∧ report.communityId = id := by
    intro id hid
    obtain ⟨rating, hrating, rfl, -⟩ := h.mem_firstSeen.mp (List.mem_filter.mp hid).1
    have hqueued : rating.communityId ∈ s.queuedOrVisited := by
      rw [h.queued, List.append_assoc]
      exact List.mem_append_left _ (List.mem_map_of_mem hrating)
    obtain ⟨report, hreport⟩ := Option.isSome_iff_exists.mp (h.reports _ hqueued)
    exact ⟨report, hreport, (of_lookup_indexBy hreport).2⟩
  generalize s.relevantFirstSeen.filter (· ∈ s.relevant) = ids at hreports ⊢
  induction ids with
  | nil => rfl
  | cons id ids ih =>
    obtain ⟨report, hreport, hid⟩ := hreports id (List.mem_cons_self ..)
    rw [List.filterMap_cons, hreport]
    simp only [List.map_cons, hid]
    rw [ih fun id hid => hreports id (List.mem_cons_of_mem _ hid)]

/-- What a selection returns on any hierarchy. -/
structure DynamicSelectionResult.Sound (sel : DynamicCommunitySelection ν)
    (result : DynamicSelectionResult ν) : Prop where
  /-- Each community is rated at most once, by the rating function. -/
  ratedOnce : (result.ratings.map DynamicRating.communityId).Nodup
  votes : ∀ rating ∈ result.ratings, ∃ vote, sel.IsVote rating.communityId vote ∧
    rating.selectedRating = vote.selectedRating
  /-- Each report is returned at most once, in the order in which the communities passed. -/
  reportsOnce : (result.reports.map CommunityReport.communityId).Nodup
  order : result.reports.map CommunityReport.communityId =
    (result.ratings.filter DynamicRating.selected).map DynamicRating.communityId
  reports : ∀ report ∈ result.reports, report ∈ sel.reports
  /-- A rating is marked selected exactly when its report is returned. -/
  selected_iff : ∀ rating ∈ result.ratings, rating.selected = true ↔
    rating.communityId ∈ result.reports.map CommunityReport.communityId
  /-- What is returned has passed. -/
  threshold : ∀ report ∈ result.reports, ∃ rating ∈ result.ratings,
    rating.communityId = report.communityId ∧
      sel.config.dynamicSearchThreshold ≤ rating.selectedRating
  /-- The parent of a selected community that is rated after it is not selected. -/
  parents : sel.config.dynamicSearchKeepParent = false →
    result.ratings.Pairwise fun parent child => child.selected = true →
      sel.parentId child.communityId = some parent.communityId → parent.selected = false

/-- The state at the end of a traversal. -/
theorem selectExplainable_holds (h : sel.selectExplainable fuel = some (.ok result)) :
    ∃ s, Holds sel s [] ∧ s.queue = [] ∧ result = s.finish sel := by
  obtain ⟨starting, s, hstart, htraverse, rfl⟩ := selectExplainable_eq_ok h
  obtain ⟨hholds, hnil⟩ := traverse_invariant (P := fun s => Holds sel s s.queue)
    (fun s t hs _ hwave => (hs.wave hwave).1) (Holds.start hstart) htraverse
  rw [hnil] at hholds
  exact ⟨s, hholds, hnil, rfl⟩

/-- **The traversal is sound on every hierarchy.** -/
theorem selectExplainable_sound (h : sel.selectExplainable fuel = some (.ok result)) :
    result.Sound sel := by
  obtain ⟨s, hs, -, rfl⟩ := selectExplainable_holds h
  have hids := hs.finish_ids
  have hrated : (s.finish sel).ratings.map DynamicRating.communityId = s.rated := by
    show (s.ratings.map _).map _ = s.ratings.map _
    rw [List.map_map]
    rfl
  have hnodup : s.rated.Nodup := by
    have hnodup := hs.nodup
    rw [List.append_assoc] at hnodup
    exact (List.nodup_append.mp hnodup).1
  -- a relevant community was seen, and is rated
  have hmem : ∀ id, id ∈ (s.finish sel).reports.map CommunityReport.communityId ↔
      id ∈ s.relevant := by
    intro id
    rw [hids, List.mem_filter, decide_eq_true_eq]
    exact ⟨fun h => h.2, fun h => ⟨hs.relevant id h, h⟩⟩
  have horder : (s.finish sel).reports.map CommunityReport.communityId =
      ((s.finish sel).ratings.filter DynamicRating.selected).map DynamicRating.communityId := by
    rw [hids, hs.firstSeen]
    show _ = ((s.ratings.map _).filter _).map _
    rw [List.filter_map, List.filter_map, List.filter_filter, List.map_map]
    refine congrArg _ (List.filter_congr fun rating hrating => ?_)
    show (decide (rating.communityId ∈ s.relevant) && _) = decide (rating.communityId ∈ s.relevant)
    by_cases hrelevant : rating.communityId ∈ s.relevant
    · obtain ⟨rating', hrating', heq, hpasses⟩ := hs.mem_firstSeen.mp (hs.relevant _ hrelevant)
      rw [heq] at hpasses
      simp [hrelevant, (hs.passes_iff hrating).mp hpasses]
    · simp [hrelevant]
  constructor
  · rw [hrated]
    exact hnodup
  · intro rating hrating
    obtain ⟨rating', hrating', rfl⟩ := List.mem_map.mp hrating
    exact hs.votes rating' hrating'
  · rw [horder]
    exact (hrated ▸ hnodup).sublist (List.filter_sublist.map _)
  · exact horder
  · intro report hreport
    obtain ⟨id, -, hlookup⟩ := List.mem_filterMap.mp hreport
    exact (of_lookup_indexBy hlookup).1
  · intro rating hrating
    obtain ⟨rating', hrating', rfl⟩ := List.mem_map.mp hrating
    rw [hmem]
    exact decide_eq_true_iff
  · intro report hreport
    have hrelevant := (hmem report.communityId).mp (List.mem_map_of_mem hreport)
    obtain ⟨rating, hrating, heq, hpasses⟩ := hs.mem_firstSeen.mp (hs.relevant _ hrelevant)
    exact ⟨_, List.mem_map_of_mem hrating, heq, (hs.passes_iff hrating).mp hpasses⟩
  · intro hkeep
    show (s.ratings.map _).Pairwise _
    rw [List.pairwise_map]
    refine (hs.parents hkeep).imp_of_mem fun {parent child} _ hchild hnot hselected heq => ?_
    have hrelevant : child.communityId ∈ s.relevant := of_decide_eq_true hselected
    obtain ⟨rating, -, heq', hpasses⟩ := hs.mem_firstSeen.mp (hs.relevant _ hrelevant)
    rw [heq'] at hpasses
    exact decide_eq_false (hnot hpasses heq)

end GraphLoom.Query.Global
