import GraphLoom.Communities.Create
import GraphLoom.Foundation.Search
import GraphLoom.Foundation.Table

/-!
# Preparing the cluster edges

The edges that are clustered are a function of the set of undirected relationships as long as no two
of them have the same normalised endpoints (`prepareClusterEdges_spec`): they are sorted, and on
request they are those of the first largest connected component.  Of rows with the same endpoints
the last one counts; of rows whose endpoints become the same by normalisation, the first.
-/

namespace GraphLoom.Communities

open Foundation ClusterRelationship

variable {ω : Type} {tools : ClusterTools ω}

/-! ### What the edges are -/

namespace ClusterRelationship

/-- The endpoints as an undirected pair. -/
def pair (row : ClusterRelationship ω) : String × String := sortedPair row.source row.target

/-- The normalised endpoints as an undirected pair. -/
def normalPair (tools : ClusterTools ω) (row : ClusterRelationship ω) : String × String :=
  sortedPair (normalizeNodeName tools row.source) (normalizeNodeName tools row.target)

def swap (row : ClusterRelationship ω) : ClusterRelationship ω where
  source := row.target
  target := row.source
  weight := row.weight

end ClusterRelationship

/-- The last row of each undirected pair. -/
def lastRows : List (ClusterRelationship ω) → List (ClusterRelationship ω)
  | [] => []
  | row :: rows => if row.pair ∈ rows.map (·.pair) then lastRows rows else row :: lastRows rows

/-- A relationship between two normalised names. -/
def Linked (tools : ClusterTools ω) (rows : List (ClusterRelationship ω)) (a b : String) : Prop :=
  ∃ row ∈ rows,
    (normalizeNodeName tools row.source = a ∧ normalizeNodeName tools row.target = b) ∨
      (normalizeNodeName tools row.source = b ∧ normalizeNodeName tools row.target = a)

/-- The normalised names that are connected to one. -/
def connected (tools : ClusterTools ω) (rows : List (ClusterRelationship ω)) (node : String) :
    Set String :=
  {x | Relation.ReflTransGen (Linked tools rows) node x}

/-- The largest connected component; of several ones that with the least name. -/
def IsStableLcc (tools : ClusterTools ω) (rows : List (ClusterRelationship ω))
    (lcc : Set String) : Prop :=
  ∃ node, (∃ neighbor, Linked tools rows node neighbor) ∧ lcc = connected tools rows node ∧
    ∀ other, (∃ neighbor, Linked tools rows other neighbor) →
      (connected tools rows other).ncard ≤ lcc.ncard ∧
        ((connected tools rows other).ncard = lcc.ncard → node ≤ other)

/-- Sorted edges, of which no two have the same undirected pair. -/
structure EdgesOf (Holds : String → String → ω → Prop) (edges : List (Edge ω)) : Prop where
  sorted : edges.Pairwise fun e e' => toLex (e.1, e.2.1) < toLex (e'.1, e'.2.1)
  ordered : ∀ edge ∈ edges, edge.1 ≤ edge.2.1
  mem_iff : ∀ source target weight,
    (source, target, weight) ∈ edges ↔ Holds source target weight

/-- The rows in another order, some with source and target swapped. -/
def SameEdges (rows rows' : List (ClusterRelationship ω)) : Prop :=
  ∃ permuted, rows.Perm permuted ∧
    List.Forall₂ (fun row row' => row' = row ∨ row' = row.swap) permuted rows'

/-! ### Pairs -/

variable (left right : String)

theorem sortedPair_comm : sortedPair left right = sortedPair right left := by
  unfold sortedPair
  split_ifs with h h'
  · rw [le_antisymm h h']
  · rfl
  · rfl
  · exact absurd (le_total left right) (not_or.mpr ⟨h, by assumption⟩)

theorem sortedPair_le : (sortedPair left right).1 ≤ (sortedPair left right).2 := by
  unfold sortedPair
  split_ifs with h
  · exact h
  · exact (not_le.mp h).le

theorem sortedPair_eq_or :
    sortedPair left right = (left, right) ∨ sortedPair left right = (right, left) := by
  unfold sortedPair
  split_ifs
  · exact Or.inl rfl
  · exact Or.inr rfl

theorem sortedPair_eq_iff {a b c d : String} :
    sortedPair a b = sortedPair c d ↔ (a = c ∧ b = d) ∨ (a = d ∧ b = c) := by
  constructor
  · intro h
    rcases sortedPair_eq_or a b with hab | hab <;> rcases sortedPair_eq_or c d with hcd | hcd <;>
      rw [hab, hcd, Prod.mk.injEq] at h
    · exact Or.inl h
    · exact Or.inr h
    · exact Or.inr h.symm
    · exact Or.inl h.symm
  · rintro (⟨rfl, rfl⟩ | ⟨rfl, rfl⟩)
    · rfl
    · exact sortedPair_comm _ _

theorem ClusterRelationship.pair_swap (row : ClusterRelationship ω) : row.swap.pair = row.pair :=
  sortedPair_comm _ _

theorem ClusterRelationship.normalPair_swap (row : ClusterRelationship ω) :
    row.swap.normalPair tools = row.normalPair tools :=
  sortedPair_comm _ _

/-- Rows with the same endpoints have the same normalised endpoints. -/
theorem ClusterRelationship.normalPair_eq {row row' : ClusterRelationship ω}
    (h : row.pair = row'.pair) : row.normalPair tools = row'.normalPair tools := by
  unfold pair at h
  unfold normalPair
  rcases sortedPair_eq_iff.mp h with ⟨hs, ht⟩ | ⟨hs, ht⟩
  · rw [hs, ht]
  · rw [hs, ht]
    exact sortedPair_comm _ _

/-! ### The last rows -/

variable {rows : List (ClusterRelationship ω)}

theorem mem_lastRows {row : ClusterRelationship ω} (h : row ∈ lastRows rows) : row ∈ rows := by
  induction rows with
  | nil => exact h
  | cons first rows ih =>
    rw [lastRows] at h
    split_ifs at h
    · exact List.mem_cons_of_mem _ (ih h)
    · rcases List.mem_cons.mp h with rfl | h
      · exact List.mem_cons_self ..
      · exact List.mem_cons_of_mem _ (ih h)

/-- The rows that no later one has the endpoints of. -/
theorem mem_lastRows_iff {row : ClusterRelationship ω} : row ∈ lastRows rows ↔
      ∃ before after, rows = before ++ row :: after ∧ row.pair ∉ after.map (·.pair) := by
  induction rows with
  | nil => simp [lastRows]
  | cons first rows ih =>
    constructor
    · intro h
      rw [lastRows] at h
      by_cases hfirst : first.pair ∈ rows.map (·.pair)
      · rw [if_pos hfirst] at h
        obtain ⟨before, after, rfl, hafter⟩ := ih.mp h
        exact ⟨first :: before, after, rfl, hafter⟩
      · rw [if_neg hfirst] at h
        rcases List.mem_cons.mp h with rfl | h
        · exact ⟨[], rows, rfl, hfirst⟩
        · obtain ⟨before, after, rfl, hafter⟩ := ih.mp h
          exact ⟨first :: before, after, rfl, hafter⟩
    · rintro ⟨before, after, heq, hafter⟩
      rw [lastRows]
      cases before with
      | nil =>
        obtain ⟨rfl, rfl⟩ := List.cons.inj heq
        rw [if_neg hafter]
        exact List.mem_cons_self ..
      | cons first' before =>
        obtain ⟨rfl, rfl⟩ := List.cons.inj heq
        have hmem := ih.mpr ⟨before, after, rfl, hafter⟩
        split_ifs
        · exact hmem
        · exact List.mem_cons_of_mem _ hmem

theorem lastRows_of_nodup (h : (rows.map (·.pair)).Nodup) : lastRows rows = rows := by
  induction rows with
  | nil => rfl
  | cons row rows ih =>
    rw [List.map_cons, List.nodup_cons] at h
    rw [lastRows, if_neg h.1, ih h.2]

theorem lastRows_nodup (rows : List (ClusterRelationship ω)) :
    ((lastRows rows).map (·.pair)).Nodup := by
  induction rows with
  | nil => exact List.nodup_nil
  | cons row rows ih =>
    rw [lastRows]
    split_ifs with h
    · exact ih
    · rw [List.map_cons, List.nodup_cons]
      refine ⟨fun hmem => h ?_, ih⟩
      obtain ⟨row', hrow', heq⟩ := List.mem_map.mp hmem
      exact List.mem_map.mpr ⟨row', mem_lastRows hrow', heq⟩

/-- A new last row replaces the one with its endpoints. -/
theorem lastRows_append_singleton (rows : List (ClusterRelationship ω))
    (row : ClusterRelationship ω) :
    lastRows (rows ++ [row]) = (lastRows rows).filter (fun r => r.pair ≠ row.pair) ++ [row] := by
  induction rows with
  | nil => rfl
  | cons first rows ih =>
    have hmem : first.pair ∈ (rows ++ [row]).map (·.pair) ↔
        first.pair ∈ rows.map (·.pair) ∨ first.pair = row.pair := by
      rw [List.map_append, List.mem_append, List.map_singleton, List.mem_singleton]
    rw [List.cons_append, lastRows, ih, lastRows]
    by_cases hfirst : first.pair ∈ rows.map (·.pair)
    · rw [if_pos (hmem.mpr (Or.inl hfirst)), if_pos hfirst]
    · rw [if_neg hfirst]
      by_cases hrow : first.pair = row.pair
      · rw [if_pos (hmem.mpr (Or.inr hrow)), List.filter_cons_of_neg (by simp [hrow])]
      · rw [if_neg (hmem.not.mpr (not_or.mpr ⟨hfirst, hrow⟩)),
          List.filter_cons_of_pos (by simp [hrow]), List.cons_append]

/-! ### Deduplication -/

/-- The edge of a row, as it is before normalisation. -/
def edgeOf (row : ClusterRelationship ω) : ClusterEdge ω where
  source := row.pair.1
  target := row.pair.2
  weight := row.weight

/-- Taking out the only element with a property leaves those without it. -/
theorem reduceOption_set_none {α : Type} {p : α → Bool} {xs : List (Option α)} {i : ℕ}
    (h : ∀ j a, xs[j]? = some (some a) → (p a = true ↔ j = i)) :
    (xs.set i none).reduceOption = xs.reduceOption.filter fun a => !p a := by
  induction xs generalizing i with
  | nil => rfl
  | cons x xs ih =>
    cases i with
    | zero =>
      have hnone : xs.reduceOption.filter (fun a => !p a) = xs.reduceOption := by
        rw [List.filter_eq_self]
        intro a ha
        obtain ⟨j, hj⟩ := List.mem_iff_getElem?.mp (List.reduceOption_mem_iff.mp ha)
        have hnot : ¬ p a = true := fun hp => absurd ((h (j + 1) a hj).mp hp) (by omega)
        simpa using hnot
      rw [List.set_cons_zero, List.reduceOption_cons_of_none]
      cases x with
      | none => rw [List.reduceOption_cons_of_none, hnone]
      | some a =>
        have hp : p a = true := (h 0 a rfl).mpr rfl
        rw [List.reduceOption_cons_of_some, List.filter_cons_of_neg (by simp [hp]), hnone]
    | succ i =>
      have hxs := ih (i := i) fun j a hj => by
        rw [h (j + 1) a hj]
        omega
      rw [List.set_cons_succ]
      cases x with
      | none => rw [List.reduceOption_cons_of_none, List.reduceOption_cons_of_none, hxs]
      | some a =>
        have hp : ¬ p a = true := fun hp => absurd ((h 0 a rfl).mp hp) (by omega)
        rw [List.reduceOption_cons_of_some, List.reduceOption_cons_of_some, hxs,
          List.filter_cons_of_pos (by simpa using hp)]

/-- The pair of an edge. -/
def ClusterEdge.pair (edge : ClusterEdge ω) : String × String := (edge.source, edge.target)

/-- The edges without the one at a place, if there is one. -/
def clearAt (deduped : List (Option (ClusterEdge ω))) : Option ℕ → List (Option (ClusterEdge ω))
  | some previousIndex => deduped.set previousIndex none
  | none => deduped

section ClearAt

variable {deduped : List (Option (ClusterEdge ω))} {index? : Option ℕ} {pair : String × String}

@[simp]
theorem length_clearAt : (clearAt deduped index?).length = deduped.length := by
  unfold clearAt
  cases index? with
  | none => rfl
  | some index => exact List.length_set

/-- Clearing the place of a pair takes out the edges with the pair. -/
theorem reduceOption_clearAt
    (h : ∀ i edge, deduped[i]? = some (some edge) → (edge.pair = pair ↔ index? = some i)) :
    (clearAt deduped index?).reduceOption =
      deduped.reduceOption.filter fun edge => edge.pair ≠ pair := by
  cases index? with
  | none =>
    symm
    rw [clearAt, List.filter_eq_self]
    intro edge hedge
    obtain ⟨i, hi⟩ := List.mem_iff_getElem?.mp (List.reduceOption_mem_iff.mp hedge)
    have hne : edge.pair ≠ pair := fun hpair => nomatch (h i edge hi).mp hpair
    exact decide_eq_true hne
  | some index =>
    have hat : ∀ j edge, deduped[j]? = some (some edge) →
        (decide (edge.pair = pair) = true ↔ j = index) := by
      intro j edge hj
      rw [decide_eq_true_eq, h j edge hj, Option.some.injEq, eq_comm]
    have hset := reduceOption_set_none hat
    rw [clearAt, hset]
    refine List.filter_congr fun edge _ => ?_
    simp

theorem getElem?_clearAt
    (h : ∀ i edge, deduped[i]? = some (some edge) → (edge.pair = pair ↔ index? = some i)) (i : ℕ)
    (edge : ClusterEdge ω) : (clearAt deduped index?)[i]? = some (some edge) ↔
      deduped[i]? = some (some edge) ∧ edge.pair ≠ pair := by
  have hother : deduped[i]? = some (some edge) → index? ≠ some i → edge.pair ≠ pair :=
    fun hi hne hpair => hne ((h i edge hi).mp hpair)
  cases index? with
  | none => exact ⟨fun hi => ⟨hi, hother hi (by simp)⟩, fun hi => hi.1⟩
  | some index =>
    rw [clearAt]
    by_cases hi : index = i
    · subst hi
      constructor
      · intro hset
        rw [List.getElem?_set_self', Option.map_eq_map, Option.map_eq_some_iff] at hset
        obtain ⟨_, -, hset⟩ := hset
        cases hset
      · rintro ⟨hget, hpair⟩
        exact absurd ((h index edge hget).mpr rfl) hpair
    · rw [List.getElem?_set_ne hi]
      exact ⟨fun hget => ⟨hget, hother hget (by simpa using hi)⟩, fun hget => hget.1⟩

end ClearAt

/-- The state of the deduplication: the live edges are those of the last rows, and the map has their
places. -/
structure Deduped (rows : List (ClusterRelationship ω))
    (indexes : AList fun _ : String × String => ℕ) (deduped : List (Option (ClusterEdge ω))) :
    Prop where
  edges : deduped.reduceOption = (lastRows rows).map edgeOf
  lookup_iff : ∀ pair i, indexes.lookup pair = some i ↔
    ∃ edge, deduped[i]? = some (some edge) ∧ edge.pair = pair

theorem Deduped.place
    {indexes : AList fun _ : String × String => ℕ} {deduped : List (Option (ClusterEdge ω))}
    (h : Deduped rows indexes deduped) (pair : String × String) (i : ℕ) (edge : ClusterEdge ω)
    (hi : deduped[i]? = some (some edge)) : edge.pair = pair ↔ indexes.lookup pair = some i := by
  constructor
  · intro hpair
    exact (h.lookup_iff pair i).mpr ⟨edge, hi, hpair⟩
  · intro hlookup
    obtain ⟨edge', hi', hpair⟩ := (h.lookup_iff pair i).mp hlookup
    rw [hi] at hi'
    obtain rfl := Option.some.inj (Option.some.inj hi')
    exact hpair

/-- One row. -/
theorem Deduped.push
    {indexes : AList fun _ : String × String => ℕ} {deduped : List (Option (ClusterEdge ω))}
    (h : Deduped rows indexes deduped) (row : ClusterRelationship ω) :
    Deduped (rows ++ [row]) (indexes.insert row.pair deduped.length)
      (clearAt deduped (indexes.lookup row.pair) ++ [some (edgeOf row)]) := by
  have hget := getElem?_clearAt (h.place row.pair)
  have hlength : (clearAt deduped (indexes.lookup row.pair)).length = deduped.length :=
    length_clearAt
  constructor
  · rw [List.reduceOption_append, reduceOption_clearAt (h.place row.pair), h.edges,
      lastRows_append_singleton, List.map_append, List.filter_map]
    rfl
  · intro pair i
    rw [List.getElem?_append, hlength]
    by_cases hi : i < deduped.length
    · -- an earlier place is not that of the new pair
      rw [if_pos hi]
      by_cases hpair : pair = row.pair
      · rw [hpair, AList.lookup_insert]
        constructor
        · intro hsame
          exact absurd (Option.some.inj hsame) (by omega)
        · rintro ⟨edge, hedge, hsame⟩
          exact absurd hsame ((hget i edge).mp hedge).2
      · rw [AList.lookup_insert_ne hpair, h.lookup_iff]
        refine exists_congr fun edge => ?_
        rw [hget i edge]
        constructor
        · rintro ⟨hedge, rfl⟩
          exact ⟨⟨hedge, hpair⟩, rfl⟩
        · rintro ⟨⟨hedge, -⟩, rfl⟩
          exact ⟨hedge, rfl⟩
    · rw [if_neg hi]
      have hold : ∀ pair, indexes.lookup pair ≠ some i := by
        intro pair hlookup
        obtain ⟨edge, hedge, -⟩ := (h.lookup_iff pair i).mp hlookup
        exact hi (List.getElem?_eq_some_iff.mp hedge).1
      by_cases hlast : i = deduped.length
      · subst hlast
        rw [Nat.sub_self, List.getElem?_cons_zero]
        constructor
        · intro hlookup
          by_cases hpair : pair = row.pair
          · exact ⟨edgeOf row, rfl, hpair.symm⟩
          · rw [AList.lookup_insert_ne hpair] at hlookup
            exact absurd hlookup (hold pair)
        · rintro ⟨edge, hedge, rfl⟩
          obtain rfl := Option.some.inj (Option.some.inj hedge)
          exact AList.lookup_insert _
      · rw [List.getElem?_eq_none (by simp; omega)]
        refine iff_of_false (fun hlookup => ?_) (by simp)
        by_cases hpair : pair = row.pair
        · rw [hpair, AList.lookup_insert] at hlookup
          exact hlast (Option.some.inj hlookup).symm
        · rw [AList.lookup_insert_ne hpair] at hlookup
          exact hold pair hlookup

/-- The deduplicated edges are those of the last rows. -/
theorem dedupeEdges_eq (rows : List (ClusterRelationship ω)) :
    dedupeEdges rows = (lastRows rows).map edgeOf := by
  have hloop : ∀ state, state = rows.foldl
      (fun (state : (AList fun _ : String × String => ℕ) × List (Option (ClusterEdge ω)))
          relationship =>
        (state.1.insert relationship.pair state.2.length,
          clearAt state.2 (state.1.lookup relationship.pair) ++ [some (edgeOf relationship)]))
      (∅, []) → Deduped rows state.1 state.2 := by
    induction rows using List.reverseRecOn with
    | nil =>
      rintro state rfl
      exact ⟨rfl, by simp⟩
    | append_singleton rows row ih =>
      rintro state rfl
      rw [List.foldl_append, List.foldl_cons, List.foldl_nil]
      exact (ih _ rfl).push row
  exact (hloop _ rfl).edges

/-! ### The largest connected component -/

/-- The neighbours of a node. -/
def neighborsOf (edges : List (ClusterEdge ω)) (node : String) : List String :=
  ((adjacency edges).lookup node).getD []

/-- Two nodes with an edge between them. -/
def Adjacent (edges : List (ClusterEdge ω)) (a b : String) : Prop :=
  ∃ edge ∈ edges, (edge.source = a ∧ edge.target = b) ∨ (edge.source = b ∧ edge.target = a)

variable {edges : List (ClusterEdge ω)}

theorem mem_neighborsOf_iff {a b : String} : b ∈ neighborsOf edges a ↔ Adjacent edges a b := by
  have harc : b ∈ neighborsOf edges a ↔ (a, b) ∈ edges.flatMap fun edge =>
      [(edge.source, edge.target), (edge.target, edge.source)] := by
    unfold neighborsOf adjacency
    rw [lookup_map_snd (fun arcs : List (String × String) => sortedSet (arcs.map Prod.snd)),
      lookup_groupBy]
    split_ifs with hnil
    · refine iff_of_false List.not_mem_nil fun hmem => ?_
      exact absurd (List.filter_eq_nil_iff.mp hnil _ hmem) (by simp)
    · rw [Option.map_some, Option.getD_some, mem_sortedSet, List.mem_map]
      constructor
      · rintro ⟨⟨x, y⟩, hmem, rfl⟩
        rw [List.mem_filter, decide_eq_true_eq] at hmem
        obtain ⟨hmem, rfl⟩ := hmem
        exact hmem
      · exact fun hmem => ⟨(a, b), List.mem_filter.mpr ⟨hmem, by simp⟩, rfl⟩
  rw [harc, List.mem_flatMap]
  refine exists_congr fun edge => and_congr_right fun _ => ?_
  simp [eq_comm, and_comm]

theorem Adjacent.symm {a b : String} (h : Adjacent edges a b) : Adjacent edges b a := by
  obtain ⟨edge, hedge, hends⟩ := h
  exact ⟨edge, hedge, hends.symm⟩

/-- The nodes of the adjacency are those with a neighbour. -/
theorem mem_adjacency_iff {a : String} :
    a ∈ (adjacency edges).map Prod.fst ↔ ∃ b, Adjacent edges a b := by
  unfold adjacency
  rw [List.map_map]
  show a ∈ List.map Prod.fst _ ↔ _
  rw [mem_keys_groupBy_iff, List.mem_map]
  constructor
  · rintro ⟨⟨x, y⟩, hmem, rfl⟩
    obtain ⟨edge, hedge, hmem⟩ := List.mem_flatMap.mp hmem
    refine ⟨y, edge, hedge, ?_⟩
    simpa [eq_comm, and_comm] using hmem
  · rintro ⟨b, edge, hedge, hends⟩
    refine ⟨(a, b), List.mem_flatMap.mpr ⟨edge, hedge, ?_⟩, rfl⟩
    simpa [eq_comm, and_comm] using hends

theorem adjacency_sorted (edges : List (ClusterEdge ω)) :
    ((adjacency edges).map Prod.fst).Pairwise (· < ·) := by
  unfold adjacency
  rw [List.map_map, List.pairwise_map]
  exact groupBy_sorted _ _

theorem searchComponent_eq (adjacency : List (String × List String)) (fuel : ℕ)
    (queue visited component : List String) :
    searchComponent adjacency fuel queue visited component =
      breadthFirst (fun node => (adjacency.lookup node).getD []) fuel queue visited component := by
  induction fuel generalizing queue visited component with
  | zero => rfl
  | succ fuel ih =>
    cases queue with
    | nil => rfl
    | cons current queue => exact ih _ _ _

/-- The search is that of the first of the largest components. -/
theorem largestConnectedComponent_eq (edges : List (ClusterEdge ω)) :
    largestConnectedComponent edges = largestComponent (neighborsOf edges) (adjacency edges).length
      ((adjacency edges).map Prod.fst) := by
  unfold largestConnectedComponent largestComponent
  rw [List.foldl_map]
  dsimp only
  congr 2
  funext state node
  unfold searchFrom
  rw [searchComponent_eq]
  rfl

/-- What the search finds is the largest component, and of several ones that with the least node. -/
theorem largestConnectedComponent_spec (hedges : edges ≠ []) :
    ∃ node, (∃ neighbor, Adjacent edges node neighbor) ∧
      (∀ x, x ∈ largestConnectedComponent edges ↔
        Relation.ReflTransGen (Adjacent edges) node x) ∧
      ∀ other, (∃ neighbor, Adjacent edges other neighbor) →
        {x | Relation.ReflTransGen (Adjacent edges) other x}.ncard ≤
            {x | Relation.ReflTransGen (Adjacent edges) node x}.ncard ∧
          ({x | Relation.ReflTransGen (Adjacent edges) other x}.ncard =
              {x | Relation.ReflTransGen (Adjacent edges) node x}.ncard → node ≤ other) := by
  have hstep : (fun a b => b ∈ neighborsOf edges a) = Adjacent edges := by
    ext a b
    exact mem_neighborsOf_iff
  have hcomponent : ∀ node, componentOf (neighborsOf edges) node =
      {x | Relation.ReflTransGen (Adjacent edges) node x} := by
    intro node
    unfold componentOf Reaches
    rw [hstep]
  have hnodes : (adjacency edges).map Prod.fst ≠ [] := by
    obtain ⟨edge, hedge⟩ := List.exists_mem_of_ne_nil _ hedges
    have hmem : edge.source ∈ (adjacency edges).map Prod.fst :=
      mem_adjacency_iff.mpr ⟨edge.target, edge, hedge, Or.inl ⟨rfl, rfl⟩⟩
    exact List.ne_nil_of_mem hmem
  have hsymm : ∀ x y, y ∈ neighborsOf edges x → x ∈ neighborsOf edges y :=
    fun x y h => mem_neighborsOf_iff.mpr (mem_neighborsOf_iff.mp h).symm
  obtain ⟨front, node, back, heq, hmem, hfront, hall⟩ :=
    largestComponent_spec hsymm
      (fun x y h => mem_adjacency_iff.mpr ⟨x, (mem_neighborsOf_iff.mp h).symm⟩)
      (List.length_map _).le hnodes
  have hsorted := adjacency_sorted edges
  rw [heq] at hsorted
  refine ⟨node, ?_, fun x => ?_, fun other hother => ?_⟩
  · rw [← mem_adjacency_iff, heq]
    exact List.mem_append_right _ (List.mem_cons_self ..)
  · rw [largestConnectedComponent_eq, hmem, hcomponent]
    rfl
  · have hnode := mem_adjacency_iff.mpr hother
    rw [← hcomponent, ← hcomponent]
    refine ⟨hall other hnode, fun hcard => ?_⟩
    rw [heq, List.mem_append, List.mem_cons] at hnode
    rcases hnode with hnode | rfl | hnode
    · exact absurd (hfront other hnode) (by rw [hcard]; exact lt_irrefl _)
    · exact le_rfl
    · exact (List.pairwise_cons.mp (List.pairwise_append.mp hsorted).2.1).1 other hnode |>.le

/-! ### The normalised graph -/

theorem linked_iff {a b : String} :
    Linked tools rows a b ↔ ∃ row ∈ rows, row.normalPair tools = sortedPair a b := by
  refine exists_congr fun row => and_congr_right fun _ => ?_
  rw [normalPair, sortedPair_eq_iff]

/-- The endpoints of every row are those of a last one. -/
theorem exists_lastRow {pair : String × String}
    (h : pair ∈ rows.map (·.pair)) : ∃ last ∈ lastRows rows, last.pair = pair := by
  induction rows with
  | nil => exact absurd h List.not_mem_nil
  | cons first rows ih =>
    rw [List.map_cons, List.mem_cons] at h
    rw [lastRows]
    by_cases hfirst : first.pair ∈ rows.map (·.pair)
    · rw [if_pos hfirst]
      rcases h with rfl | h
      · exact ih hfirst
      · exact ih h
    · rw [if_neg hfirst]
      rcases h with rfl | h
      · exact ⟨first, List.mem_cons_self .., rfl⟩
      · obtain ⟨last, hlast, hpair⟩ := ih h
        exact ⟨last, List.mem_cons_of_mem _ hlast, hpair⟩

/-- The edge of a row with normalised endpoints. -/
def normalizedEdge (tools : ClusterTools ω) (row : ClusterRelationship ω) : ClusterEdge ω :=
  { edgeOf row with
    source := normalizeNodeName tools row.pair.1
    target := normalizeNodeName tools row.pair.2 }

theorem normalizedEdge_pair (row : ClusterRelationship ω) :
    sortedPair (normalizedEdge tools row).source (normalizedEdge tools row).target =
      row.normalPair tools := by
  unfold normalizedEdge normalPair
  dsimp only
  rw [sortedPair_eq_iff]
  rcases sortedPair_eq_or row.source row.target with h | h
  · rw [pair, h]
    exact Or.inl ⟨rfl, rfl⟩
  · rw [pair, h]
    exact Or.inr ⟨rfl, rfl⟩

theorem adjacent_iff_linked :
    Adjacent ((lastRows rows).map (normalizedEdge tools)) = Linked tools rows := by
  ext a b
  rw [linked_iff]
  constructor
  · rintro ⟨edge, hedge, hends⟩
    obtain ⟨row, hrow, rfl⟩ := List.mem_map.mp hedge
    refine ⟨row, mem_lastRows hrow, ?_⟩
    rw [← normalizedEdge_pair, sortedPair_eq_iff]
    exact hends
  · rintro ⟨row, hrow, hpair⟩
    obtain ⟨last, hlast, hsame⟩ := exists_lastRow (List.mem_map_of_mem hrow)
    refine ⟨_, List.mem_map_of_mem hlast, ?_⟩
    rw [← sortedPair_eq_iff, normalizedEdge_pair, normalPair_eq hsame, hpair]

/-- The component that the edges are taken from. -/
theorem isStableLcc_largestConnectedComponent (hrows : rows ≠ []) : IsStableLcc tools rows
      {x | x ∈ largestConnectedComponent ((lastRows rows).map (normalizedEdge tools))} := by
  have hedges : (lastRows rows).map (normalizedEdge tools) ≠ [] := by
    obtain ⟨row, hrow⟩ := List.exists_mem_of_ne_nil _ hrows
    obtain ⟨last, hlast, -⟩ := exists_lastRow (List.mem_map_of_mem hrow)
    exact List.ne_nil_of_mem (List.mem_map_of_mem hlast)
  obtain ⟨node, hnode, hmem, hall⟩ := largestConnectedComponent_spec hedges
  have hset : {x | x ∈ largestConnectedComponent ((lastRows rows).map (normalizedEdge tools))} =
      connected tools rows node := by
    ext x
    rw [Set.mem_ofPred_eq, hmem, adjacent_iff_linked]
    rfl
  rw [adjacent_iff_linked] at hnode hall
  refine ⟨node, hnode, hset, fun other hother => ?_⟩
  rw [hset]
  exact hall other hother

/-- There is only one such component. -/
theorem IsStableLcc.unique {lcc lcc' : Set String}
    (h : IsStableLcc tools rows lcc) (h' : IsStableLcc tools rows lcc') : lcc = lcc' := by
  obtain ⟨node, hnode, rfl, hall⟩ := h
  obtain ⟨node', hnode', rfl, hall'⟩ := h'
  have hcard : (connected tools rows node).ncard = (connected tools rows node').ncard :=
    le_antisymm (hall' node hnode).1 (hall node' hnode').1
  have hsame : node = node' :=
    le_antisymm ((hall node' hnode').2 hcard.symm) ((hall' node hnode).2 hcard)
  rw [hsame]

/-! ### The edges of the component -/

/-- The edges of the component with a pair are all edges with it, or none. -/
theorem find?_filter_component (edges : List (ClusterEdge ω)) (lcc : List String)
    (source target : String) :
    ((edges.filter fun edge => edge.source ∈ lcc ∧ edge.target ∈ lcc).find? fun edge =>
        sortedPair edge.source edge.target = (source, target)) =
      if source ∈ lcc ∧ target ∈ lcc then
        edges.find? fun edge => sortedPair edge.source edge.target = (source, target)
      else none := by
  have hends : ∀ edge : ClusterEdge ω, sortedPair edge.source edge.target = (source, target) →
      (edge.source ∈ lcc ∧ edge.target ∈ lcc ↔ source ∈ lcc ∧ target ∈ lcc) := by
    intro edge hpair
    rcases sortedPair_eq_or edge.source edge.target with h | h
    · rw [h, Prod.mk.injEq] at hpair
      rw [hpair.1, hpair.2]
    · rw [h, Prod.mk.injEq] at hpair
      rw [hpair.1, hpair.2, and_comm]
  rw [List.find?_filter]
  by_cases hlcc : source ∈ lcc ∧ target ∈ lcc
  · rw [if_pos hlcc]
    congr 1
    funext edge
    by_cases hpair : sortedPair edge.source edge.target = (source, target)
    · simp [hpair, (hends edge hpair).mpr hlcc]
    · simp [hpair]
  · rw [if_neg hlcc, List.find?_eq_none]
    intro edge _ hedge
    rw [decide_eq_true_eq, decide_eq_true_eq, decide_eq_true_eq] at hedge
    exact hlcc ((hends edge hedge.2).mp hedge.1)

/-- What is left of the normalised edges: one for each pair, with the weight of the first. -/
theorem mem_stableLcc_iff {edges normalized : List (ClusterEdge ω)}
    (hnormalized : normalized = edges.map fun edge =>
      { edge with
        source := normalizeNodeName tools edge.source
        target := normalizeNodeName tools edge.target })
    {source target : String} {weight : ω} :
    (source, target, weight) ∈
        (stableLcc tools edges).map (fun edge => (edge.source, edge.target, edge.weight)) ↔
      (source ∈ largestConnectedComponent normalized ∧
        target ∈ largestConnectedComponent normalized) ∧
      (normalized.find? fun edge => sortedPair edge.source edge.target = (source, target)).map
        (·.weight) = some weight := by
  subst hnormalized
  unfold stableLcc
  dsimp only
  generalize hedges : (edges.map fun edge : ClusterEdge ω =>
    { edge with
      source := normalizeNodeName tools edge.source
      target := normalizeNodeName tools edge.target }) = normalized
  have hfirst := find?_filter_component normalized (largestConnectedComponent normalized)
    source target
  rw [List.mem_map]
  constructor
  · rintro ⟨edge, hedge, heq⟩
    obtain ⟨⟨pair, group⟩, hgroup, hhead⟩ := List.mem_filterMap.mp hedge
    obtain ⟨first, hgroupHead, rfl⟩ := Option.map_eq_some_iff.mp hhead
    obtain ⟨rfl, -⟩ := (mem_groupBy_iff _ _).mp hgroup
    have hpair : ofLex pair = (source, target) := by
      rw [Prod.mk.injEq, Prod.mk.injEq] at heq
      exact Prod.ext heq.1 heq.2.1
    have hweight : first.weight = weight := by
      rw [Prod.mk.injEq, Prod.mk.injEq] at heq
      exact heq.2.2
    have hpair' : pair = toLex (source, target) := hpair
    dsimp only at hgroupHead
    rw [List.head?_filter, hpair'] at hgroupHead
    simp only [EmbeddingLike.apply_eq_iff_eq] at hgroupHead
    rw [hgroupHead] at hfirst
    split_ifs at hfirst with hlcc
    refine ⟨hlcc, ?_⟩
    rw [← hfirst, Option.map_some, hweight]
  · rintro ⟨hlcc, hweight⟩
    obtain ⟨first, hfind, rfl⟩ := Option.map_eq_some_iff.mp hweight
    rw [if_pos hlcc, hfind] at hfirst
    have hmem := List.mem_of_find?_eq_some hfirst
    have hpair : sortedPair first.source first.target = (source, target) := by
      simpa using List.find?_some hfirst
    refine ⟨⟨source, target, first.weight⟩, List.mem_filterMap.mpr ?_, rfl⟩
    refine ⟨_, exists_mem_groupBy (fun edge : ClusterEdge ω =>
      toLex (sortedPair edge.source edge.target)) hmem, ?_⟩
    rw [hpair, List.head?_filter]
    simp only [EmbeddingLike.apply_eq_iff_eq]
    rw [hfirst]
    rfl

/-! ### The prepared edges -/

/-- Without the component, the edges are those of the last rows. -/
theorem prepareClusterEdges_all (tools : ClusterTools ω) (rows : List (ClusterRelationship ω)) :
    EdgesOf (fun source target weight =>
        ∃ row ∈ lastRows rows, row.pair = (source, target) ∧ row.weight = weight)
      (prepareClusterEdges tools rows false) := by
  have hperm : (sortEdges (dedupeEdges rows)).Perm ((lastRows rows).map edgeOf) := by
    rw [← dedupeEdges_eq]
    exact List.perm_insertionSort _ _
  have hmem : ∀ source target weight, (source, target, weight) ∈
      prepareClusterEdges tools rows false ↔
        ∃ row ∈ lastRows rows, row.pair = (source, target) ∧ row.weight = weight := by
    intro source target weight
    show _ ∈ (sortEdges (dedupeEdges rows)).map _ ↔ _
    rw [(hperm.map _).mem_iff, List.map_map, List.mem_map]
    refine exists_congr fun row => and_congr_right fun _ => ?_
    rw [Function.comp_apply, Prod.mk.injEq, Prod.mk.injEq, Prod.ext_iff, and_assoc]
    rfl
  refine ⟨?_, fun edge hedge => ?_, hmem⟩
  · show ((sortEdges (dedupeEdges rows)).map _).Pairwise _
    rw [List.pairwise_map]
    have hsorted : (sortEdges (dedupeEdges rows)).Pairwise fun left right => left.key ≤ right.key :=
      List.pairwise_insertionSort _ _
    have hkeys : ((sortEdges (dedupeEdges rows)).map ClusterEdge.key).Nodup := by
      have hlast : ((lastRows rows).map edgeOf).map ClusterEdge.key =
          ((lastRows rows).map (·.pair)).map toLex := by
        rw [List.map_map, List.map_map]
        rfl
      rw [(hperm.map ClusterEdge.key).nodup_iff, hlast, List.nodup_map_iff toLex.injective]
      exact lastRows_nodup rows
    rw [List.Nodup, List.pairwise_map] at hkeys
    exact (hsorted.and hkeys).imp fun h => lt_of_le_of_ne h.1 h.2
  · obtain ⟨row, -, hpair, -⟩ := (hmem edge.1 edge.2.1 edge.2.2).mp hedge
    have hle := sortedPair_le row.source row.target
    have hpair' : sortedPair row.source row.target = (edge.1, edge.2.1) := hpair
    rwa [hpair'] at hle

/-- With the component, the edges are the first ones with their pairs. -/
theorem prepareClusterEdges_component (tools : ClusterTools ω) (hrows : rows ≠ []) :
    ∃ lcc, IsStableLcc tools rows lcc ∧ EdgesOf (fun source target weight =>
        (source ∈ lcc ∧ target ∈ lcc) ∧
        ((lastRows rows).find? fun row => row.normalPair tools = (source, target)).map (·.weight) =
          some weight)
      (prepareClusterEdges tools rows true) := by
  refine ⟨_, isStableLcc_largestConnectedComponent hrows, ?_⟩
  have hmem : ∀ source target weight, (source, target, weight) ∈
      prepareClusterEdges tools rows true ↔
        (source ∈ largestConnectedComponent ((lastRows rows).map (normalizedEdge tools)) ∧
          target ∈ largestConnectedComponent ((lastRows rows).map (normalizedEdge tools))) ∧
        ((lastRows rows).find? fun row => row.normalPair tools = (source, target)).map (·.weight) =
          some weight := by
    intro source target weight
    show _ ∈ (stableLcc tools (dedupeEdges rows)).map _ ↔ _
    have hnormalized : (lastRows rows).map (normalizedEdge tools) =
        (dedupeEdges rows).map fun edge =>
          { edge with
            source := normalizeNodeName tools edge.source
            target := normalizeNodeName tools edge.target } := by
      rw [dedupeEdges_eq, List.map_map]
      rfl
    rw [mem_stableLcc_iff hnormalized, List.find?_map, Option.map_map]
    simp only [Function.comp_def, normalizedEdge_pair]
    rfl
  refine ⟨?_, fun edge hedge => ?_, hmem⟩
  · show ((stableLcc tools (dedupeEdges rows)).map _).Pairwise _
    rw [List.pairwise_map, stableLcc]
    refine (groupBy_sorted _ _).filterMap _ fun group group' hlt edge hedge edge' hedge' => ?_
    obtain ⟨_, -, rfl⟩ := Option.map_eq_some_iff.mp hedge
    obtain ⟨_, -, rfl⟩ := Option.map_eq_some_iff.mp hedge'
    exact hlt
  · obtain ⟨-, hfind⟩ := (hmem edge.1 edge.2.1 edge.2.2).mp hedge
    obtain ⟨row, hfind, -⟩ := Option.map_eq_some_iff.mp hfind
    have hpair : row.normalPair tools = (edge.1, edge.2.1) := by
      simpa using List.find?_some hfind
    have hle := sortedPair_le (normalizeNodeName tools row.source)
      (normalizeNodeName tools row.target)
    have hpair' : sortedPair (normalizeNodeName tools row.source)
      (normalizeNodeName tools row.target) = (edge.1, edge.2.1) := hpair
    rwa [hpair'] at hle

/-- Sorted edges are determined by what they are. -/
theorem EdgesOf.unique {Holds Holds' : String → String → ω → Prop} {edges edges' : List (Edge ω)}
    (h : EdgesOf Holds edges) (h' : EdgesOf Holds' edges')
    (hsame : ∀ source target weight, Holds source target weight ↔ Holds' source target weight) :
    edges = edges' := by
  have hne : ∀ {edges : List (Edge ω)} {Holds : String → String → ω → Prop}, EdgesOf Holds edges →
      edges.Nodup := fun h => h.sorted.imp fun hlt heq => by
    rw [heq] at hlt
    exact lt_irrefl _ hlt
  have hperm : edges.Perm edges' := by
    rw [List.perm_ext_iff_of_nodup (hne h) (hne h')]
    rintro ⟨source, target, weight⟩
    rw [h.mem_iff, h'.mem_iff, hsame]
  refine hperm.eq_of_pairwise (fun e e' _ _ hlt hlt' => ?_) h.sorted h'.sorted
  exact absurd (hlt.trans hlt') (lt_irrefl _)

/-! ### Permutations and swaps -/

theorem SameEdges.map_perm {rows rows' : List (ClusterRelationship ω)} (h : SameEdges rows rows')
    {α : Type} {f : ClusterRelationship ω → α} (hf : ∀ row, f row.swap = f row) :
    (rows.map f).Perm (rows'.map f) := by
  obtain ⟨permuted, hperm, hswaps⟩ := h
  have hmap : permuted.map f = rows'.map f := by
    rw [← List.forall₂_eq_eq_eq, List.forall₂_map_left_iff, List.forall₂_map_right_iff]
    refine hswaps.imp fun row row' hrow => ?_
    rcases hrow with rfl | rfl
    · rfl
    · exact (hf row).symm
  rw [← hmap]
  exact hperm.map f

/-- What the endpoints and the weight say is said by both or none. -/
theorem SameEdges.exists_iff {rows rows' : List (ClusterRelationship ω)} (h : SameEdges rows rows')
    {P : ClusterRelationship ω → Prop} (hP : ∀ row, P row.swap ↔ P row) :
    (∃ row ∈ rows, P row) ↔ ∃ row ∈ rows', P row := by
  have hperm := h.map_perm (f := P) fun row => propext (hP row)
  have hmem : True ∈ rows.map P ↔ True ∈ rows'.map P := hperm.mem_iff
  simpa using hmem

theorem SameEdges.linked {rows rows' : List (ClusterRelationship ω)} (h : SameEdges rows rows') :
    Linked tools rows = Linked tools rows' := by
  ext a b
  rw [linked_iff, linked_iff]
  exact h.exists_iff fun row => by rw [normalPair_swap]

theorem SameEdges.isStableLcc {rows rows' : List (ClusterRelationship ω)}
    (h : SameEdges rows rows') (lcc : Set String) :
    IsStableLcc tools rows lcc ↔ IsStableLcc tools rows' lcc := by
  unfold IsStableLcc connected
  rw [h.linked]

/-- The first row with normalised endpoints is the only one when no two rows have the same. -/
theorem find?_normalPair
    (h : (rows.map (·.normalPair tools)).Nodup) {pair : String × String} {weight : ω} :
    ((rows.find? fun row => row.normalPair tools = pair).map (·.weight) = some weight) ↔
      ∃ row ∈ rows, row.normalPair tools = pair ∧ row.weight = weight := by
  rw [Option.map_eq_some_iff]
  refine exists_congr fun row => ?_
  rw [Table.find?_key_eq_some_iff h, and_assoc]

/-- **The edges do not depend on the order of the rows or of their endpoints.** -/
theorem prepareClusterEdges_congr {rows rows' : List (ClusterRelationship ω)} (useLcc : Bool)
    (hnodup : (rows.map (·.normalPair tools)).Nodup) (h : SameEdges rows rows') :
    prepareClusterEdges tools rows useLcc = prepareClusterEdges tools rows' useLcc := by
  have hpairs : ∀ {rows : List (ClusterRelationship ω)}, (rows.map (·.normalPair tools)).Nodup →
      lastRows rows = rows := by
    intro rows hrows
    refine lastRows_of_nodup ?_
    rw [List.Nodup, List.pairwise_map] at hrows ⊢
    exact hrows.imp fun hne heq => hne (normalPair_eq heq)
  have hnodup' : (rows'.map (·.normalPair tools)).Nodup :=
    (h.map_perm fun row => row.normalPair_swap).nodup_iff.mp hnodup
  cases useLcc with
  | false =>
    refine (prepareClusterEdges_all tools rows).unique (prepareClusterEdges_all tools rows')
      fun source target weight => ?_
    rw [hpairs hnodup, hpairs hnodup']
    refine h.exists_iff fun row => ?_
    rw [pair_swap]
    rfl
  | true =>
    by_cases hrows : rows = []
    · have hrows' : rows' = [] := by
        obtain ⟨permuted, hperm, hswaps⟩ := h
        rw [hrows, List.nil_perm] at hperm
        rwa [hperm, List.forall₂_nil_left_iff] at hswaps
      rw [hrows, hrows']
    · have hrows' : rows' ≠ [] := by
        rintro rfl
        have hlength := (h.map_perm (f := fun _ => ()) fun _ => rfl).length_eq
        rw [List.length_map, List.length_map, List.length_nil] at hlength
        exact hrows (List.eq_nil_of_length_eq_zero hlength)
      obtain ⟨lcc, hlcc, hedges⟩ := prepareClusterEdges_component tools hrows
      obtain ⟨lcc', hlcc', hedges'⟩ := prepareClusterEdges_component tools hrows'
      obtain rfl := hlcc.unique ((h.isStableLcc lcc').mpr hlcc')
      refine hedges.unique hedges' fun source target weight => and_congr_right fun _ => ?_
      rw [hpairs hnodup, hpairs hnodup', find?_normalPair hnodup, find?_normalPair hnodup']
      refine h.exists_iff fun row => ?_
      rw [normalPair_swap]
      rfl

/-- **What the cluster edges are.**  They are sorted and undirected.  Without the component they are
the last rows of their endpoints; with it they are those of the largest connected component, of the
last rows the first with the normalised endpoints; and when no two rows have the same normalised
endpoints, neither the order of the rows nor that of their endpoints matters. -/
theorem prepareClusterEdges_spec (tools : ClusterTools ω) (rows : List (ClusterRelationship ω)) :
    EdgesOf (fun source target weight => ∃ before row after, rows = before ++ row :: after ∧
        row.pair = (source, target) ∧ row.pair ∉ after.map (·.pair) ∧ row.weight = weight)
      (prepareClusterEdges tools rows false) ∧
    (rows = [] → prepareClusterEdges tools rows true = []) ∧
    (rows ≠ [] → ∃ lcc, IsStableLcc tools rows lcc ∧ EdgesOf (fun source target weight =>
        (source ∈ lcc ∧ target ∈ lcc) ∧
        ((lastRows rows).find? fun row => row.normalPair tools = (source, target)).map (·.weight) =
          some weight)
      (prepareClusterEdges tools rows true)) ∧
    ((rows.map (·.normalPair tools)).Nodup → ∀ rows' useLcc, SameEdges rows rows' →
      prepareClusterEdges tools rows useLcc = prepareClusterEdges tools rows' useLcc) := by
  refine ⟨?_, ?_, prepareClusterEdges_component tools, fun hnodup rows' useLcc h =>
    prepareClusterEdges_congr useLcc hnodup h⟩
  · have hedges := prepareClusterEdges_all tools rows
    refine ⟨hedges.sorted, hedges.ordered, fun source target weight => ?_⟩
    rw [hedges.mem_iff]
    constructor
    · rintro ⟨row, hrow, hpair, hweight⟩
      obtain ⟨before, after, heq, hafter⟩ := mem_lastRows_iff.mp hrow
      exact ⟨before, row, after, heq, hpair, hafter, hweight⟩
    · rintro ⟨before, row, after, heq, hpair, hafter, hweight⟩
      exact ⟨row, mem_lastRows_iff.mpr ⟨before, after, heq, hafter⟩, hpair, hweight⟩
  · rintro rfl
    rfl

/-- Tools that turn one name to upper case. -/
def sampleUppercase : ClusterTools ℕ where
  decodeHtmlEntities := id
  toUppercase name := if name = "bob" then "BOB" else name
  hierarchicalLeiden _ _ _ := .ok []

/-- Two rows in the other order, one with its endpoints swapped. -/
theorem prepareClusterEdges_spec_sample :
    prepareClusterEdges sampleUppercase [⟨"bob", "ALICE", 1⟩, ⟨"CAROL", "bob", 2⟩] true =
      prepareClusterEdges sampleUppercase [⟨"bob", "CAROL", 2⟩, ⟨"bob", "ALICE", 1⟩] true :=
  (prepareClusterEdges_spec sampleUppercase [⟨"bob", "ALICE", 1⟩, ⟨"CAROL", "bob", 2⟩]).2.2.2
    (by decide) _ _ ⟨_, List.Perm.swap .., .cons (Or.inr rfl) (.cons (Or.inl rfl) .nil)⟩

/-- Of two rows whose endpoints are the same once they are normalised, the first counts. -/
theorem prepareClusterEdges_keeps_first :
    ClusterRelationship.normalPair sampleUppercase ⟨"bob", "ALICE", 1⟩ =
        ClusterRelationship.normalPair sampleUppercase ⟨"BOB", "ALICE", 2⟩ ∧
      prepareClusterEdges sampleUppercase [⟨"bob", "ALICE", 1⟩, ⟨"BOB", "ALICE", 2⟩] true =
        [("ALICE", "BOB", 1)] :=
  ⟨by decide, by decide⟩

end GraphLoom.Communities
