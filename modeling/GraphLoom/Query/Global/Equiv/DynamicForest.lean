import GraphLoom.Query.Global.Equiv.Dynamic

/-!
## Dynamic community selection on a forest

`selectExplainable_forest`: where the parent and children columns agree, every community has a
report and levels grow from parent to child, the selection returns exactly the communities that are
reached from level 0 (or from the level that is entered because nothing has passed before) through
passing ancestors, pass themselves and, unless parents are kept, have no passing child.

During the traversal `entry` is the level at which communities were last queued as such.  Every
other queued community has its parent among the rated ones (`OnForest.low`), and communities that
pass are at `entry` or above it, so that no parent is rated after its child (`OnForest.order`).
-/

namespace GraphLoom.Query.Global

open Foundation

variable {ν : Type}

/-! ### What is to be selected -/

variable {id : String}

namespace DynamicCommunitySelection

variable (sel : DynamicCommunitySelection ν)

/-- The parent and children columns agree, and every community has a report. -/
structure ColumnsAgree : Prop where
  distinct : (sel.communities.map Community.shortId).Nodup
  reports : ∀ community ∈ sel.communities, (sel.reportsById.lookup community.shortId).isSome
  agree : ∀ parent ∈ sel.communities, ∀ child ∈ sel.communities,
    child.shortId ∈ parent.children.map toString ↔ toString child.parent = parent.shortId
  children : ∀ parent ∈ sel.communities, ∀ id ∈ parent.children,
    ∃ child ∈ sel.communities, child.shortId = toString id

/-- The communities are a forest: some depth grows from parent to child. -/
def IsForest : Prop :=
  ∃ depth : String → ℕ, ∀ parent ∈ sel.communities, ∀ child ∈ sel.communities,
    toString child.parent = parent.shortId → depth parent.shortId < depth child.shortId

/-- The levels grow from parent to child. -/
def LevelsGrow : Prop :=
  ∀ parent ∈ sel.communities, ∀ child ∈ sel.communities,
    toString child.parent = parent.shortId → parent.level < child.level

/-- The levels that are rated as such: level 0, and the next one while nothing has passed. -/
inductive Entered : ℤ → Prop
  | zero : Entered 0
  | fallback {level : ℤ} (entered : Entered level)
      (nonempty : ∃ community ∈ sel.communities, community.level = level)
      (failed : ∀ community ∈ sel.communities, community.level = level →
        ¬ sel.Passes community.shortId)
      (le_max : level + 1 ≤ sel.config.dynamicSearchMaxLevel) : Entered (level + 1)

/-- The communities that are reached through passing ancestors. -/
inductive Reached : String → Prop
  | entry {community : Community} (mem : community ∈ sel.communities)
      (entered : sel.Entered community.level) : Reached community.shortId
  | child {parent child : Community} (reached : Reached parent.shortId)
      (passes : sel.Passes parent.shortId) (mem : parent ∈ sel.communities)
      (childMem : child ∈ sel.communities) (parentOf : toString child.parent = parent.shortId) :
      Reached child.shortId

/-- The communities that a selection is to return. -/
def Selected (id : String) : Prop :=
  sel.Reached id ∧ sel.Passes id ∧
    (sel.config.dynamicSearchKeepParent = false → ∀ child ∈ sel.communities,
      toString child.parent = id → ¬ sel.Passes child.shortId)

variable {sel}

/-! ### Reading a forest -/

theorem Reached.exists_community (h : sel.Reached id) :
    ∃ community ∈ sel.communities, community.shortId = id := by
  cases h with
  | entry mem entered => exact ⟨_, mem, rfl⟩
  | child reached passes mem childMem parentOf => exact ⟨_, childMem, rfl⟩

/-- The levels below an entered one are entered, and nothing passes there. -/
theorem Entered.lower {level : ℤ} (h : sel.Entered level) : 0 ≤ level ∧
    ∀ k, 0 ≤ k → k < level → sel.Entered k ∧
      (∃ community ∈ sel.communities, community.level = k) ∧
      (∀ community ∈ sel.communities, community.level = k → ¬ sel.Passes community.shortId) ∧
      level ≤ sel.config.dynamicSearchMaxLevel := by
  induction h with
  | zero => exact ⟨by omega, fun k hk hlt => absurd hk (by omega)⟩
  | @fallback level entered nonempty failed le_max ih =>
    refine ⟨by omega, fun k hk hlt => ?_⟩
    by_cases heq : k = level
    · subst heq
      exact ⟨entered, nonempty, failed, le_max⟩
    · obtain ⟨hentered, hnonempty, hfailed, -⟩ := ih.2 k hk (by omega)
      exact ⟨hentered, hnonempty, hfailed, le_max⟩

variable (hagree : sel.ColumnsAgree)
include hagree

theorem ColumnsAgree.lookup_iff {community : Community} :
    sel.communitiesById.lookup id = some community ↔
      community ∈ sel.communities ∧ community.shortId = id :=
  lookup_indexBy_iff hagree.distinct

theorem ColumnsAgree.parentId_eq {community : Community} (hmem : community ∈ sel.communities) :
    sel.parentId community.shortId = some (toString community.parent) := by
  rw [parentId, hagree.lookup_iff.mpr ⟨hmem, rfl⟩]
  rfl

/-- The children that are queued are the communities with the parent. -/
theorem ColumnsAgree.mem_childrenIds {parent : Community} (hmem : parent ∈ sel.communities)
    : id ∈ sel.childrenIds parent.shortId ↔
      ∃ child ∈ sel.communities, child.shortId = id ∧ toString child.parent = parent.shortId := by
  unfold childrenIds
  rw [hagree.lookup_iff.mpr ⟨hmem, rfl⟩]
  simp only
  rw [List.mem_filter]
  constructor
  · rintro ⟨hid, -⟩
    obtain ⟨i, hi, rfl⟩ := List.mem_map.mp hid
    obtain ⟨child, hchild, heq⟩ := hagree.children parent hmem i hi
    refine ⟨child, hchild, heq, (hagree.agree parent hmem child hchild).mp ?_⟩
    rw [heq]
    exact hid
  · rintro ⟨child, hchild, rfl, hparent⟩
    exact ⟨(hagree.agree parent hmem child hchild).mpr hparent, hagree.reports child hchild⟩

end DynamicCommunitySelection

/-! ### What holds during the traversal of a forest -/

namespace Traversal

variable {sel : DynamicCommunitySelection ν} {s : Traversal ν} {entry : ℤ} {rest : List String}

/-- What holds when `rest` is left of the wave and `entry` was the last level that was queued. -/
structure OnForest (sel : DynamicCommunitySelection ν) (entry : ℤ) (s : Traversal ν)
    (rest : List String) : Prop where
  base : Holds sel s rest
  entered : sel.Entered entry
  nonempty : ∃ community ∈ sel.communities, community.level = entry
  reached : ∀ id ∈ s.queuedOrVisited, sel.Reached id
  /-- A community above the entry level was queued as a child. -/
  low : ∀ community ∈ sel.communities, community.shortId ∈ s.queuedOrVisited →
    community.level ≤ entry ∨ toString community.parent ∈ s.rated
  high : ∀ community ∈ sel.communities, community.shortId ∈ rest ++ s.nextQueue →
    entry ≤ community.level
  /-- The children of what passes are queued. -/
  closed : ∀ id ∈ s.rated, sel.Passes id → ∀ child ∈ sel.communities,
    toString child.parent = id → child.shortId ∈ s.queuedOrVisited
  /-- No parent comes after its child. -/
  order : (s.rated ++ rest ++ s.nextQueue).Pairwise fun a b => sel.parentId a ≠ some b
  entries : ∀ community ∈ sel.communities, sel.Entered community.level →
    community.level ≤ entry → community.shortId ∈ s.queuedOrVisited
  quiet : (∀ id ∈ s.rated, ¬ sel.Passes id) → s.nextQueue = [] ∧
    ∀ community ∈ sel.communities, community.shortId ∈ s.queuedOrVisited → community.level ≤ entry
  loud : (∃ id ∈ s.rated, sel.Passes id) → s.relevant ≠ [] ∧
    ∃ community ∈ sel.communities, community.level = entry ∧ sel.Passes community.shortId

variable {vote : CommunityVote ν} {communityId : String}

/-- A vote that does not pass. -/
theorem OnForest.recordVote_of_lt
    (h : OnForest sel entry s (communityId :: rest)) (hvote : sel.IsVote communityId vote)
    (hle : ¬ sel.config.dynamicSearchThreshold ≤ vote.selectedRating) :
    OnForest sel entry (s.recordVote sel (communityId, vote)) rest := by
  have hbase := h.base.recordVote hvote
  have hpass : ¬ sel.Passes communityId := fun hpass => hle (hvote.passes_iff.mp hpass)
  rw [Traversal.recordVote_of_lt s hle] at hbase ⊢
  have hrated : ({ s with
      usage := s.usage.saturatingAdd vote.usage
      ratings := s.ratings ++ [s.rating sel communityId vote] } : Traversal ν).rated =
      s.rated ++ [communityId] := by
    rw [rated, List.map_append]
    rfl
  have hpasses : ∀ id ∈ s.rated ++ [communityId], sel.Passes id → id ∈ s.rated := by
    intro id hid hid'
    rcases List.mem_append.mp hid with hid | hid
    · exact hid
    · rw [List.mem_singleton.mp hid] at hid'
      exact absurd hid' hpass
  constructor
  · exact hbase
  · exact h.entered
  · exact h.nonempty
  · exact h.reached
  · intro community hmem hqueued
    rw [hrated]
    rcases h.low community hmem hqueued with hlow | hparent
    · exact Or.inl hlow
    · exact Or.inr (List.mem_append_left _ hparent)
  · intro community hmem hid
    exact h.high community hmem (List.mem_cons_of_mem _ hid)
  · intro id hid hid'
    rw [hrated] at hid
    exact h.closed id (hpasses id hid hid') hid'
  · rw [hrated]
    have horder := h.order
    simp only [List.append_assoc, List.cons_append, List.nil_append] at horder ⊢
    exact horder
  · exact h.entries
  · intro hquiet
    rw [hrated] at hquiet
    exact h.quiet fun id hid => hquiet id (List.mem_append_left _ hid)
  · rintro ⟨id, hid, hid'⟩
    rw [hrated] at hid
    exact h.loud ⟨id, hpasses id hid hid', hid'⟩

variable (hagree : sel.ColumnsAgree) (hgrow : sel.LevelsGrow)
include hagree hgrow

/-- A vote that passes. -/
theorem OnForest.recordVote_of_le
    (h : OnForest sel entry s (communityId :: rest)) (hvote : sel.IsVote communityId vote)
    (hle : sel.config.dynamicSearchThreshold ≤ vote.selectedRating) :
    OnForest sel entry (s.recordVote sel (communityId, vote)) rest := by
  have hbase := h.base.recordVote hvote
  have hpass : sel.Passes communityId := hvote.passes_iff.mpr hle
  obtain ⟨hnotRated, hnotRelevant⟩ := h.base.head_fresh
  have hqueued : communityId ∈ s.queuedOrVisited := by
    rw [h.base.queued, List.append_assoc]
    exact List.mem_append_right _ (List.mem_cons_self ..)
  obtain ⟨community, hmem, rfl⟩ := (h.reached _ hqueued).exists_community
  have hentry : entry ≤ community.level := h.high community hmem (List.mem_cons_self ..)
  -- a new community is a child of this one
  have hfresh : ∀ id ∈ freshIds s.queuedOrVisited (sel.childrenIds community.shortId),
      id ∉ s.queuedOrVisited ∧ ∃ child ∈ sel.communities, child.shortId = id ∧
        toString child.parent = community.shortId ∧ entry < child.level := by
    intro id hid
    obtain ⟨hchild, hnotQueued⟩ := mem_freshIds.mp hid
    obtain ⟨child, hchild, hid, hparent⟩ := (hagree.mem_childrenIds hmem).mp hchild
    have hlevel := hgrow community hmem child hchild hparent
    exact ⟨hnotQueued, child, hchild, hid, hparent, by omega⟩
  rw [Traversal.recordVote_of_le s hle hnotRelevant] at hbase ⊢
  have hrated : (s.ratings ++ [s.rating sel community.shortId vote]).map DynamicRating.communityId =
      s.rated ++ [community.shortId] := by
    rw [List.map_append]
    rfl
  constructor
  · exact hbase
  · exact h.entered
  · exact h.nonempty
  · intro id hid
    rcases List.mem_append.mp hid with hid | hid
    · exact h.reached id hid
    · obtain ⟨-, child, hchild, rfl, hparent, -⟩ := hfresh id hid
      exact .child (h.reached _ hqueued) hpass hmem hchild hparent
  · intro child hchild hid
    show child.level ≤ entry ∨ toString child.parent ∈ List.map _ _
    rw [hrated]
    rcases List.mem_append.mp hid with hid | hid
    · rcases h.low child hchild hid with hlow | hparent
      · exact Or.inl hlow
      · exact Or.inr (List.mem_append_left _ hparent)
    · obtain ⟨-, child', hchild', heq, hparent, -⟩ := hfresh _ hid
      have hsame : child' = child := List.inj_on_of_nodup_map hagree.distinct hchild' hchild heq
      rw [← hsame, hparent]
      exact Or.inr (List.mem_append_right _ (List.mem_singleton_self _))
  · intro child hchild hid
    have hid' : child.shortId ∈ rest ++ s.nextQueue ∨
        child.shortId ∈ freshIds s.queuedOrVisited (sel.childrenIds community.shortId) := by
      rw [← List.mem_append, List.append_assoc]
      exact hid
    rcases hid' with hid | hid
    · exact h.high child hchild (List.mem_cons_of_mem _ hid)
    · obtain ⟨-, child', hchild', heq, -, hlt⟩ := hfresh _ hid
      have hsame : child' = child := List.inj_on_of_nodup_map hagree.distinct hchild' hchild heq
      rw [← hsame]
      omega
  · intro id hid hid' child hchild hparent
    change id ∈ List.map _ _ at hid
    rw [hrated] at hid
    show child.shortId ∈ s.queuedOrVisited ++ _
    rcases List.mem_append.mp hid with hid | hid
    · exact List.mem_append_left _ (h.closed id hid hid' child hchild hparent)
    · rw [List.mem_singleton.mp hid] at hparent
      by_cases hold : child.shortId ∈ s.queuedOrVisited
      · exact List.mem_append_left _ hold
      · exact List.mem_append_right _ (mem_freshIds.mpr
          ⟨(hagree.mem_childrenIds hmem).mpr ⟨child, hchild, rfl, hparent⟩, hold⟩)
  · have horder : s.rated ++ [community.shortId] ++ rest ++
        (s.nextQueue ++ freshIds s.queuedOrVisited (sel.childrenIds community.shortId)) =
        (s.rated ++ community.shortId :: rest ++ s.nextQueue) ++
          freshIds s.queuedOrVisited (sel.childrenIds community.shortId) := by
      simp only [List.append_assoc, List.cons_append, List.nil_append]
    show (List.map _ _ ++ rest ++ (s.nextQueue ++ _)).Pairwise _
    rw [hrated, horder]
    refine List.pairwise_append.mpr ⟨h.order, ?_, ?_⟩
    · -- the new ones all have this parent, which is not new
      refine List.pairwise_of_forall_mem_list fun a ha b hb heq => ?_
      obtain ⟨-, child, hchild, rfl, hparent, -⟩ := hfresh a ha
      rw [hagree.parentId_eq hchild, hparent] at heq
      obtain rfl := Option.some.inj heq
      exact (hfresh _ hb).1 hqueued
    · intro a ha b hb heq
      obtain ⟨hnew, child, hchild, rfl, -, hlt⟩ := hfresh b hb
      have ha' : a ∈ s.queuedOrVisited := (h.base.queued a).mpr ha
      obtain ⟨other, hother, rfl⟩ := (h.reached a ha').exists_community
      rw [hagree.parentId_eq hother] at heq
      have hparent := Option.some.inj heq
      rcases h.low other hother ha' with hlow | hrated'
      · have hlevel := hgrow child hchild other hother hparent
        omega
      · -- its parent would be rated, and not new
        rw [hparent] at hrated'
        refine hnew ((h.base.queued _).mpr ?_)
        rw [List.append_assoc]
        exact List.mem_append_left _ hrated'
  · intro child hchild hentered hlevel
    exact List.mem_append_left _ (h.entries child hchild hentered hlevel)
  · intro hquiet
    refine absurd hpass (hquiet community.shortId ?_)
    show community.shortId ∈ List.map _ _
    rw [hrated]
    exact List.mem_append_right _ (List.mem_singleton_self _)
  · intro _
    constructor
    · -- the community itself is relevant now
      have hself : sel.parentId community.shortId ≠ some community.shortId := by
        rw [hagree.parentId_eq hmem]
        intro heq
        have hlevel := hgrow community hmem community hmem (Option.some.inj heq)
        omega
      have hin : community.shortId ∈ (if sel.config.dynamicSearchKeepParent then
          s.relevant ++ [community.shortId] else
          (s.relevant ++ [community.shortId]).filter
            fun id => sel.parentId community.shortId ≠ some id) := by
        split
        · exact List.mem_append_right _ (List.mem_singleton_self _)
        · refine List.mem_filter.mpr ⟨List.mem_append_right _ (List.mem_singleton_self _), ?_⟩
          exact decide_eq_true hself
      exact List.ne_nil_of_mem hin
    · by_cases hloud : ∃ id ∈ s.rated, sel.Passes id
      · exact (h.loud hloud).2
      · have hquiet := h.quiet fun id hid hid' => hloud ⟨id, hid, hid'⟩
        have hlow := hquiet.2 community hmem hqueued
        exact ⟨community, hmem, by omega, hpass⟩

/-- One vote. -/
theorem OnForest.recordVote
    (h : OnForest sel entry s (communityId :: rest)) (hvote : sel.IsVote communityId vote) :
    OnForest sel entry (s.recordVote sel (communityId, vote)) rest := by
  by_cases hle : sel.config.dynamicSearchThreshold ≤ vote.selectedRating
  · exact h.recordVote_of_le hagree hgrow hvote hle
  · exact h.recordVote_of_lt hvote hle

/-! ### The end of a wave -/

/-- No level above the entry level is entered. -/
def Stops (sel : DynamicCommunitySelection ν) (entry : ℤ) : Prop :=
  ∀ community ∈ sel.communities, sel.Entered community.level → community.level ≤ entry

omit hagree hgrow

/-- What the end of a wave leaves as it is. -/
theorem turn_same (sel : DynamicCommunitySelection ν) (s : Traversal ν) : (s.turn sel).rated = s.rated ∧
    (s.turn sel).relevant = s.relevant ∧
    (s.turn sel).traversalLevel = saturatingAdd s.traversalLevel 1 := by
  unfold turn Traversal.fallback
  simp only
  split
  · rw [foldl_enqueue]
    exact ⟨rfl, rfl, rfl⟩
  · exact ⟨rfl, rfl, rfl⟩

/-- Without a fallback the next wave is what was queued. -/
theorem turn_of_not (h : ¬ (s.nextQueue = [] ∧ s.relevant = [] ∧
    saturatingAdd s.traversalLevel 1 ≤ sel.config.dynamicSearchMaxLevel)) :
    (s.turn sel).queue = s.nextQueue ∧ (s.turn sel).queuedOrVisited = s.queuedOrVisited := by
  unfold turn Traversal.fallback
  simp only
  rw [ite_cond_eq_false _ _ (eq_false h)]
  exact ⟨rfl, rfl⟩

/-- With a fallback it is what is new of the next level. -/
theorem turn_of_fallback (h : s.nextQueue = [] ∧ s.relevant = [] ∧
    saturatingAdd s.traversalLevel 1 ≤ sel.config.dynamicSearchMaxLevel) :
    (s.turn sel).queue = freshIds s.queuedOrVisited
        ((sel.levels.lookup (saturatingAdd s.traversalLevel 1)).getD []) ∧
      (s.turn sel).queuedOrVisited = s.queuedOrVisited ++ freshIds s.queuedOrVisited
        ((sel.levels.lookup (saturatingAdd s.traversalLevel 1)).getD []) := by
  unfold turn Traversal.fallback
  simp only
  rw [ite_cond_eq_true _ _ (eq_true h), foldl_enqueue]
  refine ⟨?_, rfl⟩
  show s.nextQueue ++ _ = _
  rw [h.1]
  rfl

/-- The next wave has the children that were queued. -/
theorem OnForest.turn_same_queue (h : OnForest sel entry s [])
    (hqueue : (s.turn sel).queue = s.nextQueue)
    (hqueued : (s.turn sel).queuedOrVisited = s.queuedOrVisited) :
    OnForest sel entry (s.turn sel) (s.turn sel).queue := by
  obtain ⟨hrated, hrelevant, -⟩ := turn_same sel s
  constructor
  · exact h.base.turn
  · exact h.entered
  · exact h.nonempty
  · rw [hqueued]
    exact h.reached
  · rw [hqueued, hrated]
    exact h.low
  · intro community hmem hid
    rw [hqueue] at hid
    refine h.high community hmem ?_
    rw [List.nil_append]
    exact (List.mem_append.mp hid).resolve_right List.not_mem_nil
  · rw [hqueued, hrated]
    exact h.closed
  · rw [hqueue, hrated]
    have horder := h.order
    rw [List.append_nil] at horder
    show (s.rated ++ s.nextQueue ++ []).Pairwise _
    rw [List.append_nil]
    exact horder
  · rw [hqueued]
    exact h.entries
  · rw [hqueued, hrated]
    exact fun hquiet => ⟨rfl, (h.quiet hquiet).2⟩
  · rw [hrated, hrelevant]
    exact h.loud

/-- While nothing has passed, the next wave has the communities of the next level. -/
theorem OnForest.turn_next_level (hagree : sel.ColumnsAgree) (hgrow : sel.LevelsGrow)
    (h : OnForest sel entry s []) (hquiet : ∀ id ∈ s.rated, ¬ sel.Passes id) {fresh : List String}
    (hfresh : ∀ id, id ∈ fresh ↔
      ∃ community ∈ sel.communities, community.level = entry + 1 ∧ community.shortId = id)
    (hqueue : (s.turn sel).queue = fresh)
    (hqueued : (s.turn sel).queuedOrVisited = s.queuedOrVisited ++ fresh)
    (hmax : entry + 1 ≤ sel.config.dynamicSearchMaxLevel)
    (hnonempty : ∃ community ∈ sel.communities, community.level = entry + 1) :
    OnForest sel (entry + 1) (s.turn sel) (s.turn sel).queue := by
  obtain ⟨hrated, hrelevant, -⟩ := turn_same sel s
  obtain ⟨hnil, hlow⟩ := h.quiet hquiet
  have hratedQueued : ∀ id, id ∈ s.queuedOrVisited ↔ id ∈ s.rated := by
    intro id
    rw [h.base.queued, hnil, List.append_nil, List.append_nil]
  have hfailed : ∀ community ∈ sel.communities, community.level = entry →
      ¬ sel.Passes community.shortId := by
    intro community hmem hlevel
    refine hquiet _ ((hratedQueued _).mp (h.entries community hmem ?_ (by omega)))
    rw [hlevel]
    exact h.entered
  have hentered : sel.Entered (entry + 1) := .fallback h.entered h.nonempty hfailed hmax
  -- the queued communities are at most one level above the entry level
  have hlevels : ∀ community ∈ sel.communities, community.shortId ∈ s.queuedOrVisited ++ fresh →
      community.level ≤ entry + 1 := by
    intro community hmem hid
    rcases List.mem_append.mp hid with hid | hid
    · have hle := hlow community hmem hid
      omega
    · obtain ⟨other, hother, hlevel, heq⟩ := (hfresh _).mp hid
      have hsame : other = community := List.inj_on_of_nodup_map hagree.distinct hother hmem heq
      rw [← hsame]
      omega
  constructor
  · exact h.base.turn
  · exact hentered
  · exact hnonempty
  · intro id hid
    rw [hqueued] at hid
    rcases List.mem_append.mp hid with hid | hid
    · exact h.reached id hid
    · obtain ⟨community, hmem, hlevel, rfl⟩ := (hfresh id).mp hid
      exact .entry hmem (hlevel ▸ hentered)
  · intro community hmem hid
    rw [hqueued] at hid
    exact Or.inl (hlevels community hmem hid)
  · intro community hmem hid
    rw [hqueue] at hid
    have hid' := (List.mem_append.mp hid).resolve_right List.not_mem_nil
    obtain ⟨other, hother, hlevel, heq⟩ := (hfresh _).mp hid'
    have hsame : other = community := List.inj_on_of_nodup_map hagree.distinct hother hmem heq
    rw [← hsame]
    omega
  · intro id hid hpass
    rw [hrated] at hid
    exact absurd hpass (hquiet id hid)
  · rw [hqueue, hrated]
    have horder := h.order
    rw [hnil, List.append_nil, List.append_nil] at horder
    show (s.rated ++ fresh ++ []).Pairwise _
    rw [List.append_nil]
    -- the parent of a queued community is below the next level
    have hbelow : ∀ a ∈ s.queuedOrVisited ++ fresh, ∀ b ∈ fresh, sel.parentId a ≠ some b := by
      intro a ha b hb heq
      obtain ⟨parent, hparent, hlevel, rfl⟩ := (hfresh b).mp hb
      have hexists : ∃ community ∈ sel.communities, community.shortId = a := by
        rcases List.mem_append.mp ha with ha | ha
        · exact (h.reached a ha).exists_community
        · obtain ⟨community, hmem, -, heq⟩ := (hfresh a).mp ha
          exact ⟨community, hmem, heq⟩
      obtain ⟨community, hmem, rfl⟩ := hexists
      rw [hagree.parentId_eq hmem] at heq
      have hlt := hgrow parent hparent community hmem (Option.some.inj heq)
      have hle := hlevels community hmem ha
      omega
    refine List.pairwise_append.mpr ⟨horder, ?_, ?_⟩
    · exact List.pairwise_of_forall_mem_list fun a ha b hb =>
        hbelow a (List.mem_append_right _ ha) b hb
    · exact fun a ha b hb => hbelow a (List.mem_append_left _ ((hratedQueued a).mpr ha)) b hb
  · intro community hmem hentered' hle
    rw [hqueued]
    by_cases heq : community.level = entry + 1
    · exact List.mem_append_right _ ((hfresh _).mpr ⟨community, hmem, heq, rfl⟩)
    · exact List.mem_append_left _ (h.entries community hmem hentered' (by omega))
  · intro _
    refine ⟨rfl, fun community hmem hid => ?_⟩
    rw [hqueued] at hid
    exact hlevels community hmem hid
  · rintro ⟨id, hid, hpass⟩
    rw [hrated] at hid
    exact absurd hpass (hquiet id hid)

/-- Once something has passed, no further level is entered. -/
theorem OnForest.stops_of_loud (h : OnForest sel entry s rest)
    (hloud : ∃ id ∈ s.rated, sel.Passes id) : Stops sel entry := by
  intro community _ hentered
  obtain ⟨-, passing, hmem, hlevel, hpass⟩ := h.loud hloud
  by_contra hlt
  obtain ⟨hnonneg, -⟩ := h.entered.lower
  obtain ⟨-, -, hfailed, -⟩ := hentered.lower.2 entry hnonneg (by omega)
  exact hfailed passing hmem hlevel hpass

/-- When the next level has no communities, no further level is entered. -/
theorem stops_of_empty (hentry : sel.Entered entry)
    (hempty : ∀ community ∈ sel.communities, community.level ≠ entry + 1) : Stops sel entry := by
  intro community hmem hentered
  by_contra hlt
  obtain ⟨hnonneg, -⟩ := hentry.lower
  by_cases heq : community.level = entry + 1
  · exact hempty community hmem heq
  · obtain ⟨-, ⟨other, hother, hlevel⟩, -, -⟩ :=
      hentered.lower.2 (entry + 1) (by omega) (by omega)
    exact hempty other hother hlevel

/-- When the next level is above the greatest one, no further level is entered. -/
theorem stops_of_max (hentry : sel.Entered entry)
    (hmax : sel.config.dynamicSearchMaxLevel < entry + 1) : Stops sel entry := by
  intro community hmem hentered
  by_contra hlt
  obtain ⟨hnonneg, -⟩ := hentry.lower
  obtain ⟨-, -, -, hle⟩ := hentered.lower.2 entry hnonneg (by omega)
  omega

/-- The end of a wave. -/
theorem OnForest.turn (hagree : sel.ColumnsAgree) (hgrow : sel.LevelsGrow)
    (h : OnForest sel entry s [])
    (hlevel : (∀ id ∈ s.rated, ¬ sel.Passes id) → s.traversalLevel = entry) :
    ∃ entry', OnForest sel entry' (s.turn sel) (s.turn sel).queue ∧
      ((s.turn sel).queue ≠ [] → (∀ id ∈ (s.turn sel).rated, ¬ sel.Passes id) →
        (s.turn sel).traversalLevel = entry') ∧
      ((s.turn sel).queue = [] → Stops sel entry') := by
  obtain ⟨hrated, -, htraversal⟩ := turn_same sel s
  by_cases hloud : ∃ id ∈ s.rated, sel.Passes id
  · -- something has passed, and the children go on
    have hnot : ¬ (s.nextQueue = [] ∧ s.relevant = [] ∧
        saturatingAdd s.traversalLevel 1 ≤ sel.config.dynamicSearchMaxLevel) :=
      fun hall => (h.loud hloud).1 hall.2.1
    obtain ⟨hqueue, hqueued⟩ := turn_of_not hnot
    refine ⟨entry, h.turn_same_queue hqueue hqueued, fun _ hquiet => ?_,
      fun _ => h.stops_of_loud hloud⟩
    obtain ⟨id, hid, hpass⟩ := hloud
    rw [hrated] at hquiet
    exact absurd hpass (hquiet id hid)
  · have hquiet : ∀ id ∈ s.rated, ¬ sel.Passes id := fun id hid hpass => hloud ⟨id, hid, hpass⟩
    obtain ⟨hnil, hlow⟩ := h.quiet hquiet
    have hrelevant : s.relevant = [] := by
      rw [List.eq_nil_iff_forall_not_mem]
      intro id hid
      obtain ⟨rating, hrating, rfl, hpass⟩ := h.base.mem_firstSeen.mp (h.base.relevant id hid)
      exact hquiet _ (List.mem_map_of_mem hrating) hpass
    have hnonneg := h.entered.lower.1
    have hi64 := sel.config.maxLevel_le
    by_cases hmax : entry + 1 ≤ sel.config.dynamicSearchMaxLevel
    · -- the next level is entered if it has communities
      have hsat : saturatingAdd s.traversalLevel 1 = entry + 1 := by
        rw [hlevel hquiet]
        unfold saturatingAdd i64Min
        omega
      have hall : s.nextQueue = [] ∧ s.relevant = [] ∧
          saturatingAdd s.traversalLevel 1 ≤ sel.config.dynamicSearchMaxLevel := by
        rw [hsat]
        exact ⟨hnil, hrelevant, hmax⟩
      obtain ⟨hqueue, hqueued⟩ := turn_of_fallback hall
      rw [hsat] at hqueue hqueued
      have hfresh : ∀ id, id ∈ freshIds s.queuedOrVisited ((sel.levels.lookup (entry + 1)).getD []) ↔
          ∃ community ∈ sel.communities, community.level = entry + 1 ∧ community.shortId = id := by
        intro id
        rw [mem_freshIds, DynamicCommunitySelection.mem_levels]
        constructor
        · rintro ⟨⟨community, hmem, hcommunity, heq, -⟩, -⟩
          exact ⟨community, hmem, hcommunity, heq⟩
        · rintro ⟨community, hmem, hcommunity, rfl⟩
          refine ⟨⟨community, hmem, hcommunity, rfl, hagree.reports community hmem⟩, fun hid => ?_⟩
          have hle := hlow community hmem hid
          omega
      by_cases hnonempty : ∃ community ∈ sel.communities, community.level = entry + 1
      · refine ⟨entry + 1, h.turn_next_level hagree hgrow hquiet hfresh hqueue hqueued
          hmax hnonempty, fun _ _ => ?_, fun hempty => ?_⟩
        · rw [htraversal, hsat]
        · obtain ⟨community, hmem, hcommunity⟩ := hnonempty
          have hid := (hfresh community.shortId).mpr ⟨community, hmem, hcommunity, rfl⟩
          rw [← hqueue, hempty] at hid
          exact absurd hid List.not_mem_nil
      · have hempty : freshIds s.queuedOrVisited ((sel.levels.lookup (entry + 1)).getD []) = [] := by
          rw [List.eq_nil_iff_forall_not_mem]
          intro id hid
          obtain ⟨community, hmem, hcommunity, -⟩ := (hfresh id).mp hid
          exact hnonempty ⟨community, hmem, hcommunity⟩
        rw [hempty] at hqueue hqueued
        rw [List.append_nil] at hqueued
        refine ⟨entry, h.turn_same_queue (hqueue.trans hnil.symm) hqueued, fun hne => ?_, fun _ => ?_⟩
        · exact absurd hqueue hne
        · exact stops_of_empty h.entered fun community hmem hcommunity =>
            hnonempty ⟨community, hmem, hcommunity⟩
    · -- no further level may be entered
      have hstops := stops_of_max h.entered (by omega)
      by_cases hsat : saturatingAdd s.traversalLevel 1 ≤ sel.config.dynamicSearchMaxLevel
      · -- the level is the greatest of all, and stays
        have hstay : saturatingAdd s.traversalLevel 1 = entry := by
          have hle : entry ≤ sel.config.dynamicSearchMaxLevel ∨ entry = 0 := by
            by_cases hpos : 0 < entry
            · obtain ⟨-, -, -, hle⟩ := h.entered.lower.2 0 (by omega) hpos
              exact Or.inl hle
            · exact Or.inr (by omega)
          rw [hlevel hquiet] at hsat ⊢
          unfold saturatingAdd i64Min i64Max at *
          omega
        obtain ⟨hqueue, hqueued⟩ := turn_of_fallback ⟨hnil, hrelevant, hsat⟩
        have hempty : freshIds s.queuedOrVisited
            ((sel.levels.lookup (saturatingAdd s.traversalLevel 1)).getD []) = [] := by
          rw [List.eq_nil_iff_forall_not_mem, hstay]
          intro id hid
          obtain ⟨hid, hnot⟩ := mem_freshIds.mp hid
          obtain ⟨community, hmem, hcommunity, rfl, -⟩ := DynamicCommunitySelection.mem_levels.mp hid
          exact hnot (h.entries community hmem (hcommunity ▸ h.entered) (by omega))
        rw [hempty] at hqueue hqueued
        rw [List.append_nil] at hqueued
        exact ⟨entry, h.turn_same_queue (hqueue.trans hnil.symm) hqueued,
          fun hne => absurd hqueue hne, fun _ => hstops⟩
      · have hnot : ¬ (s.nextQueue = [] ∧ s.relevant = [] ∧
            saturatingAdd s.traversalLevel 1 ≤ sel.config.dynamicSearchMaxLevel) :=
          fun hall => hsat hall.2.2
        obtain ⟨hqueue, hqueued⟩ := turn_of_not hnot
        exact ⟨entry, h.turn_same_queue hqueue hqueued,
          fun hne => absurd (hqueue.trans hnil) hne, fun _ => hstops⟩

/-! ### The traversal -/

/-- What holds between the waves. -/
def BetweenWaves (sel : DynamicCommunitySelection ν) (s : Traversal ν) : Prop :=
  ∃ entry, OnForest sel entry s s.queue ∧
    (s.queue ≠ [] → (∀ id ∈ s.rated, ¬ sel.Passes id) → s.traversalLevel = entry) ∧
    (s.queue = [] → Stops sel entry)

theorem BetweenWaves.wave (hagree : sel.ColumnsAgree) (hgrow : sel.LevelsGrow) {t : Traversal ν}
    (h : BetweenWaves sel s) (hne : s.queue ≠ []) (hwave : s.wave sel = .ok t) :
    BetweenWaves sel t := by
  obtain ⟨entry, hforest, hlevel, -⟩ := h
  obtain ⟨votes, hvotes, rfl⟩ := wave_eq_ok hwave
  -- during the wave the level stays, and what is rated stays rated
  have hend := foldl_recordVote_invariant
    (P := fun s' rest => OnForest sel entry s' rest ∧ s'.traversalLevel = s.traversalLevel ∧
      ∀ id ∈ s.rated, id ∈ s'.rated)
    (fun s' communityId rest vote hs hvote => by
      obtain ⟨hs, htraversal, hrated⟩ := hs
      refine ⟨hs.recordVote hagree hgrow hvote, ?_, fun id hid => ?_⟩
      · rw [← htraversal]
        by_cases hle : sel.config.dynamicSearchThreshold ≤ vote.selectedRating
        · rw [recordVote_of_le s' hle hs.base.head_fresh.2]
        · rw [recordVote_of_lt s' hle]
      · have hmem : ∀ ratings : List (DynamicRating ν),
            id ∈ (s'.ratings ++ ratings).map DynamicRating.communityId := by
          intro ratings
          rw [List.map_append]
          exact List.mem_append_left _ (hrated id hid)
        by_cases hle : sel.config.dynamicSearchThreshold ≤ vote.selectedRating
        · rw [recordVote_of_le s' hle hs.base.head_fresh.2]
          exact hmem _
        · rw [recordVote_of_lt s' hle]
          exact hmem _) hvotes ⟨hforest, rfl, fun _ hid => hid⟩
  obtain ⟨hs, htraversal, hrated⟩ := hend
  refine hs.turn hagree hgrow fun hquiet => ?_
  rw [htraversal]
  exact hlevel hne fun id hid => hquiet id (hrated id hid)

/-- The first wave has the communities of level 0. -/
theorem BetweenWaves.start (hagree : sel.ColumnsAgree) (hgrow : sel.LevelsGrow)
    {starting : List String} (hstart : sel.levels.lookup 0 = some starting) :
    BetweenWaves sel (.start starting) := by
  have hmem : ∀ id, id ∈ starting ↔
      ∃ community ∈ sel.communities, community.level = 0 ∧ community.shortId = id := by
    intro id
    have hlevels : id ∈ (sel.levels.lookup 0).getD [] ↔ _ := DynamicCommunitySelection.mem_levels
    rw [hstart, Option.getD_some] at hlevels
    rw [hlevels]
    constructor
    · rintro ⟨community, hcommunity, hlevel, heq, -⟩
      exact ⟨community, hcommunity, hlevel, heq⟩
    · rintro ⟨community, hcommunity, hlevel, rfl⟩
      exact ⟨community, hcommunity, hlevel, rfl, hagree.reports community hcommunity⟩
  have hlevel : ∀ community ∈ sel.communities, community.shortId ∈ starting →
      community.level = 0 := by
    intro community hcommunity hid
    obtain ⟨other, hother, hlevel, heq⟩ := (hmem _).mp hid
    rw [← List.inj_on_of_nodup_map hagree.distinct hother hcommunity heq]
    exact hlevel
  have hne : starting ≠ [] := (DynamicCommunitySelection.levels_nodup 0 starting hstart).1
  refine ⟨0, ?_, fun _ _ => rfl, fun hnil => absurd hnil hne⟩
  constructor
  · exact Holds.start hstart
  · exact .zero
  · obtain ⟨id, hid⟩ := List.exists_mem_of_ne_nil _ hne
    obtain ⟨community, hcommunity, hzero, -⟩ := (hmem id).mp hid
    exact ⟨community, hcommunity, hzero⟩
  · intro id hid
    obtain ⟨community, hcommunity, hzero, rfl⟩ := (hmem id).mp hid
    exact .entry hcommunity (hzero ▸ .zero)
  · intro community hcommunity hid
    have hzero := hlevel community hcommunity hid
    exact Or.inl (by omega)
  · intro community hcommunity hid
    have hid' : community.shortId ∈ starting :=
      (List.mem_append.mp hid).resolve_right List.not_mem_nil
    have hzero := hlevel community hcommunity hid'
    omega
  · intro id hid
    exact absurd hid List.not_mem_nil
  · show ([] ++ starting ++ []).Pairwise _
    rw [List.nil_append, List.append_nil]
    refine List.pairwise_of_forall_mem_list fun a ha b hb heq => ?_
    obtain ⟨child, hchild, hchildLevel, rfl⟩ := (hmem a).mp ha
    obtain ⟨parent, hparent, hparentLevel, rfl⟩ := (hmem b).mp hb
    rw [hagree.parentId_eq hchild] at heq
    have hlt := hgrow parent hparent child hchild (Option.some.inj heq)
    omega
  · intro community hcommunity hentered hle
    have hnonneg := hentered.lower.1
    exact (hmem _).mpr ⟨community, hcommunity, by omega, rfl⟩
  · intro _
    refine ⟨rfl, fun community hcommunity hid => ?_⟩
    have hzero := hlevel community hcommunity hid
    omega
  · rintro ⟨id, hid, -⟩
    exact absurd hid List.not_mem_nil

/-- At the end every reached community is rated. -/
theorem OnForest.rated_of_reached (h : OnForest sel entry s []) (hnext : s.nextQueue = [])
    (hstops : Stops sel entry) (hreached : sel.Reached id) : id ∈ s.rated := by
  have hqueued : ∀ id, id ∈ s.queuedOrVisited ↔ id ∈ s.rated := by
    intro id
    rw [h.base.queued, hnext, List.append_nil, List.append_nil]
  induction hreached with
  | @entry community mem entered =>
    exact (hqueued _).mp (h.entries community mem entered (hstops community mem entered))
  | @child parent child reached passes mem childMem parentOf ih =>
    exact (hqueued _).mp (h.closed _ ih passes child childMem parentOf)

/-- At the end a community is relevant exactly when it is to be selected. -/
theorem OnForest.mem_relevant_iff (hagree : sel.ColumnsAgree) (hgrow : sel.LevelsGrow)
    (h : OnForest sel entry s []) (hnext : s.nextQueue = []) (hstops : Stops sel entry) :
    id ∈ s.relevant ↔ sel.Selected id := by
  have hqueued : ∀ id, id ∈ s.queuedOrVisited ↔ id ∈ s.rated := by
    intro id
    rw [h.base.queued, hnext, List.append_nil, List.append_nil]
  constructor
  · intro hid
    obtain ⟨rating, hrating, rfl, hpass⟩ := h.base.mem_firstSeen.mp (h.base.relevant id hid)
    have hrated : rating.communityId ∈ s.rated := List.mem_map_of_mem hrating
    refine ⟨h.reached _ ((hqueued _).mpr hrated), hpass, fun hkeep child hchild hparent hchildPass => ?_⟩
    have hchildRated := (hqueued _).mp (h.closed _ hrated hpass child hchild hparent)
    obtain ⟨childRating, hchildRating, heq⟩ := List.mem_map.mp hchildRated
    have hchildParent : sel.parentId childRating.communityId = some rating.communityId := by
      rw [heq, hagree.parentId_eq hchild, hparent]
    rw [← heq] at hchildPass
    -- of a rated parent and its child, the parent is rated first and so is taken out
    have horder := h.order
    rw [hnext, List.append_nil, List.append_nil, rated, List.pairwise_map] at horder
    have hpairs : s.ratings.Pairwise fun a b =>
        (sel.Passes b.communityId → sel.parentId b.communityId = some a.communityId →
          a.communityId ∉ s.relevant) ∧
        (sel.Passes a.communityId → sel.parentId a.communityId = some b.communityId →
          b.communityId ∉ s.relevant) :=
      ((h.base.parents hkeep).and horder).imp fun hab =>
        ⟨hab.1, fun _ heq => absurd heq hab.2⟩
    have : Std.Symm fun a b : DynamicRating ν =>
        (sel.Passes b.communityId → sel.parentId b.communityId = some a.communityId →
          a.communityId ∉ s.relevant) ∧
        (sel.Passes a.communityId → sel.parentId a.communityId = some b.communityId →
          b.communityId ∉ s.relevant) := ⟨fun _ _ hab => ⟨hab.2, hab.1⟩⟩
    by_cases hsame : rating = childRating
    · -- no community is its own parent
      subst hsame
      have hlevel := hgrow child hchild child hchild (hparent.trans heq)
      omega
    · exact (hpairs.forall hrating hchildRating hsame).1 hchildPass hchildParent hid
  · rintro ⟨hreached, hpass, hchildren⟩
    have hrated := h.rated_of_reached hnext hstops hreached
    obtain ⟨rating, hrating, rfl⟩ := List.mem_map.mp hrated
    by_contra hnot
    obtain ⟨hkeep, childRating, hchildRating, hchildPass, hchildParent⟩ :=
      h.base.kept rating hrating hpass hnot
    have hchildRated : childRating.communityId ∈ s.rated := List.mem_map_of_mem hchildRating
    obtain ⟨child, hchild, heq⟩ := (h.reached _ ((hqueued _).mpr hchildRated)).exists_community
    rw [← heq] at hchildPass hchildParent
    rw [hagree.parentId_eq hchild] at hchildParent
    exact hchildren hkeep child hchild (Option.some.inj hchildParent) hchildPass

end Traversal

open Traversal

variable {sel : DynamicCommunitySelection ν} {fuel : ℕ} {result : DynamicSelectionResult ν}

/-- **On a forest whose levels grow the selection is exact.** -/
theorem selectExplainable_forest (hagree : sel.ColumnsAgree) (hgrow : sel.LevelsGrow)
    (h : sel.selectExplainable fuel = some (.ok result)) (id : String) :
    id ∈ result.reports.map CommunityReport.communityId ↔ sel.Selected id := by
  obtain ⟨starting, s, hstart, htraverse, rfl⟩ := selectExplainable_eq_ok h
  obtain ⟨⟨⟨entry, hforest, -, hstops⟩, hnext⟩, hnil⟩ := traverse_invariant
    (P := fun s => BetweenWaves sel s ∧ s.nextQueue = [])
    (fun s t hs hne hwave => by
      obtain ⟨votes, -, rfl⟩ := wave_eq_ok hwave
      exact ⟨hs.1.wave hagree hgrow hne hwave, rfl⟩)
    ⟨BetweenWaves.start hagree hgrow hstart, rfl⟩ htraverse
  rw [hnil] at hforest
  rw [hforest.base.finish_ids, List.mem_filter, decide_eq_true_eq,
    ← hforest.mem_relevant_iff hagree hgrow hnext (hstops hnil)]
  exact ⟨fun hid => hid.2, fun hid => ⟨hforest.base.relevant id hid, hid⟩⟩

/-- **Dynamic community selection** terminates and is sound on every hierarchy, and is exact on
every forest whose levels grow from parent to child. -/
theorem selectExplainable_correct (sel : DynamicCommunitySelection ν) (fuel : ℕ) :
    (sel.reports.length < fuel → (sel.selectExplainable fuel).isSome) ∧
    ∀ result, sel.selectExplainable fuel = some (.ok result) →
      result.Sound sel ∧
      (sel.ColumnsAgree → sel.LevelsGrow → ∀ id,
        id ∈ result.reports.map CommunityReport.communityId ↔ sel.Selected id) :=
  ⟨selectExplainable_isSome, fun _ h => ⟨selectExplainable_sound h,
    fun hagree hgrow id => selectExplainable_forest hagree hgrow h id⟩⟩

/-! ### A root with one child -/

/-- The child stands at level 1. -/
def nestedSelection : DynamicCommunitySelection Unit where
  config := ⟨1, false, 2, by decide⟩
  reports := [⟨"report-1", "1", "child", "child"⟩, ⟨"report-0", "0", "root", "root"⟩]
  communities := [⟨"1", 1, 0, []⟩, ⟨"0", 0, -1, [1]⟩]
  rateCommunity _ _ := .ok ⟨5, [], .none⟩

theorem nestedSelection_columnsAgree : nestedSelection.ColumnsAgree where
  distinct := by decide
  reports := by decide
  agree := by decide
  children := by decide

theorem selectExplainable_correct_sample : nestedSelection.Selected "1" :=
  (((selectExplainable_correct nestedSelection 3).2 _ rfl).2 nestedSelection_columnsAgree
    (by unfold DynamicCommunitySelection.LevelsGrow; decide) "1").mp (by decide)

/-- The child stands at level 0, before its root. -/
def flatSelection : DynamicCommunitySelection Unit where
  config := ⟨1, false, 2, by decide⟩
  reports := [⟨"report-1", "1", "child", "child"⟩, ⟨"report-0", "0", "root", "root"⟩]
  communities := [⟨"1", 0, 0, []⟩, ⟨"0", 0, -1, [1]⟩]
  rateCommunity _ _ := .ok ⟨5, [], .none⟩

theorem flatSelection_columnsAgree : flatSelection.ColumnsAgree where
  distinct := by decide
  reports := by decide
  agree := by decide
  children := by decide

/-- **On a forest alone the selection is not exact**: a root that is rated after its child is
returned with it. -/
theorem selectExplainable_flat :
    ¬ ∀ (sel : DynamicCommunitySelection Unit) (fuel : ℕ) (result : DynamicSelectionResult Unit),
      sel.ColumnsAgree → sel.IsForest → sel.selectExplainable fuel = some (.ok result) →
        ∀ id, id ∈ result.reports.map CommunityReport.communityId ↔ sel.Selected id := by
  intro h
  have hforest : flatSelection.IsForest := ⟨fun id => if id = "1" then 1 else 0, by decide⟩
  have hselected : flatSelection.Selected "0" :=
    (h flatSelection 3 _ flatSelection_columnsAgree hforest rfl "0").mp (by decide)
  have hpasses : flatSelection.Passes "1" :=
    ⟨⟨5, [], .none⟩, ⟨⟨"report-1", "1", "child", "child"⟩, rfl, rfl⟩, by decide⟩
  exact hselected.2.2 rfl ⟨"1", 0, 0, []⟩ (by decide) (by decide) hpasses

end GraphLoom.Query.Global
