import Mathlib.Data.Set.Card

/-!
# Breadth-first search

A search puts a node in its queue when it first visits it, so as many turns as there are nodes empty
the queue (`Searching.breadthFirst`).  On a symmetric relation, and when the nodes visited before
are whole components, what it finds is then the component of its start (`Searching.mem_iff`);
searching from all nodes in turn and keeping what is strictly larger leads to the first of the
largest components (`largestComponent_spec`).
-/

namespace GraphLoom.Foundation

variable {α : Type*} [DecidableEq α]

/-- Visit the new ones of some nodes, and put them at the end of the queue. -/
def enqueue (nodes queue visited : List α) : List α × List α :=
  nodes.foldl (fun (next : List α × List α) node =>
    if node ∈ next.2 then next else (next.1 ++ [node], next.2.insert node)) (queue, visited)

/-- Search the nodes that can be reached from the queue; returns them and all visited ones. -/
def breadthFirst (neighbors : α → List α) :
    ℕ → List α → List α → List α → List α × List α
  | 0, _, visited, component => (component, visited)
  | _ + 1, [], visited, component => (component, visited)
  | fuel + 1, current :: queue, visited, component =>
    let next := enqueue (neighbors current) queue visited
    breadthFirst neighbors fuel next.1 next.2 (component.insert current)

/-- Search from a node unless it has been visited, and keep what is found when it is larger than
what has been kept. -/
def searchFrom (neighbors : α → List α) (fuel : ℕ) (state : List α × List α) (node : α) :
    List α × List α :=
  if node ∈ state.2 then state
  else
    let found := breadthFirst neighbors fuel [node] (state.2.insert node) []
    (if state.1.length < found.1.length then found.1 else state.1, found.2)

/-- The first of the largest components of some nodes. -/
def largestComponent (neighbors : α → List α) (fuel : ℕ) (nodes : List α) : List α :=
  (nodes.foldl (searchFrom neighbors fuel) ([], [])).1

/-- What can be reached. -/
def Reaches (neighbors : α → List α) : α → α → Prop :=
  Relation.ReflTransGen fun a b => b ∈ neighbors a

/-- The nodes that can be reached from a node. -/
def componentOf (neighbors : α → List α) (node : α) : Set α := {x | Reaches neighbors node x}

/-- A search from `start` under way, after one that has visited the nodes `before`. -/
structure Searching (neighbors : α → List α) (before : List α) (start : α)
    (queue visited component : List α) : Prop where
  visited_iff : ∀ x, x ∈ visited ↔ x ∈ before ∨ x ∈ component ∨ x ∈ queue
  fresh : ∀ x, x ∈ component ∨ x ∈ queue → x ∉ before
  nodup : (component ++ queue).Nodup
  reached : ∀ x, x ∈ component ∨ x ∈ queue → Reaches neighbors start x
  started : start ∈ component ∨ start ∈ queue
  expanded : ∀ x ∈ component, ∀ y ∈ neighbors x, y ∈ visited

/-! ### One turn -/

theorem enqueue_spec (nodes queue visited : List α) : ∃ fresh,
    (enqueue nodes queue visited).1 = queue ++ fresh ∧ fresh.Nodup ∧
      (∀ x, x ∈ fresh ↔ x ∈ nodes ∧ x ∉ visited) ∧
      ∀ x, x ∈ (enqueue nodes queue visited).2 ↔ x ∈ visited ∨ x ∈ nodes := by
  unfold enqueue
  induction nodes generalizing queue visited with
  | nil => exact ⟨[], (List.append_nil _).symm, List.nodup_nil, by simp, by simp⟩
  | cons node nodes ih =>
    rw [List.foldl_cons]
    by_cases hnode : node ∈ visited
    · obtain ⟨fresh, hqueue, hnodup, hfresh, hvisited⟩ := ih queue visited
      rw [if_pos hnode]
      refine ⟨fresh, hqueue, hnodup, fun x => ?_, fun x => ?_⟩
      · rw [hfresh, List.mem_cons]
        constructor
        · exact fun h => ⟨Or.inr h.1, h.2⟩
        · rintro ⟨rfl | h, hx⟩
          · exact absurd hnode hx
          · exact ⟨h, hx⟩
      · rw [hvisited, List.mem_cons]
        constructor
        · exact Or.imp_right Or.inr
        · rintro (h | rfl | h)
          · exact Or.inl h
          · exact Or.inl hnode
          · exact Or.inr h
    · obtain ⟨fresh, hqueue, hnodup, hfresh, hvisited⟩ := ih (queue ++ [node]) (visited.insert node)
      rw [if_neg hnode]
      refine ⟨node :: fresh, ?_, ?_, fun x => ?_, fun x => ?_⟩
      · rw [hqueue, List.append_assoc, List.singleton_append]
      · rw [List.nodup_cons]
        refine ⟨fun h => ((hfresh node).mp h).2 ?_, hnodup⟩
        exact List.mem_insert_self
      · rw [List.mem_cons, List.mem_cons, hfresh, List.mem_insert_iff, not_or]
        constructor
        · rintro (rfl | ⟨h, -, hx⟩)
          · exact ⟨Or.inl rfl, hnode⟩
          · exact ⟨Or.inr h, hx⟩
        · rintro ⟨rfl | h, hx⟩
          · exact Or.inl rfl
          · by_cases heq : x = node
            · exact Or.inl heq
            · exact Or.inr ⟨h, heq, hx⟩
      · rw [hvisited, List.mem_insert_iff, List.mem_cons]
        tauto

variable {neighbors : α → List α} {before queue visited component : List α}
  {start current : α}

theorem Searching.init (hstart : start ∉ before) :
    Searching neighbors before start [start] (before.insert start) [] where
  visited_iff x := by
    rw [List.mem_insert_iff, List.mem_singleton]
    simp [or_comm]
  fresh x hx := by
    obtain rfl : x = start := by simpa using hx
    exact hstart
  nodup := List.nodup_singleton start
  reached x hx := by
    obtain rfl : x = start := by simpa using hx
    exact .refl
  started := Or.inr (List.mem_singleton.mpr rfl)
  expanded x hx := absurd hx List.not_mem_nil

/-- One turn of the search. -/
theorem Searching.turn
    (h : Searching neighbors before start (current :: queue) visited component) :
    Searching neighbors before start (enqueue (neighbors current) queue visited).1
      (enqueue (neighbors current) queue visited).2 (component.insert current) := by
  obtain ⟨fresh, hqueue, hnodup, hfresh, hvisited⟩ := enqueue_spec (neighbors current) queue visited
  rw [hqueue]
  have hcurrent : Reaches neighbors start current := h.reached current (Or.inr (List.mem_cons_self ..))
  have hall := h.nodup
  rw [List.nodup_append, List.nodup_cons] at hall
  obtain ⟨hcomponent, ⟨hnotqueue, hrest⟩, hdisjoint⟩ := hall
  have hnew : current ∉ component := fun hmem =>
    hdisjoint current hmem current (List.mem_cons_self ..) rfl
  have hmem : ∀ x, x ∈ component.insert current ∨ x ∈ queue ++ fresh →
      (x ∈ component ∨ x ∈ current :: queue) ∨ x ∈ fresh := by
    intro x hx
    rw [List.mem_insert_iff, List.mem_append] at hx
    rw [List.mem_cons]
    tauto
  refine ⟨fun x => ?_, fun x hx => ?_, ?_, fun x hx => ?_, ?_, fun x hx y hy => ?_⟩
  · rw [hvisited, h.visited_iff, List.mem_insert_iff, List.mem_append, List.mem_cons, hfresh,
      h.visited_iff, List.mem_cons]
    tauto
  · rcases hmem x hx with hx | hx
    · exact h.fresh x hx
    · intro hbefore
      exact ((hfresh x).mp hx).2 ((h.visited_iff x).mpr (Or.inl hbefore))
  · rw [List.insert_of_not_mem hnew, List.nodup_append]
    refine ⟨List.nodup_cons.mpr ⟨hnew, hcomponent⟩, ?_, ?_⟩
    · rw [List.nodup_append]
      refine ⟨hrest, hnodup, fun x hx y hy => ?_⟩
      rintro rfl
      exact ((hfresh x).mp hy).2 ((h.visited_iff x).mpr (Or.inr (Or.inr (List.mem_cons_of_mem _ hx))))
    · intro x hx y hy
      rintro rfl
      rcases List.mem_append.mp hy with hy | hy
      · rcases List.mem_cons.mp hx with rfl | hx
        · exact hnotqueue hy
        · exact hdisjoint x hx x (List.mem_cons_of_mem _ hy) rfl
      · refine ((hfresh x).mp hy).2 ((h.visited_iff x).mpr (Or.inr ?_))
        rcases List.mem_cons.mp hx with rfl | hx
        · exact Or.inr (List.mem_cons_self ..)
        · exact Or.inl hx
  · rcases hmem x hx with hx | hx
    · exact h.reached x hx
    · exact hcurrent.tail ((hfresh x).mp hx).1
  · rw [List.mem_insert_iff, List.mem_append]
    have hstarted := h.started
    rw [List.mem_cons] at hstarted
    tauto
  · rw [hvisited]
    rcases List.mem_insert_iff.mp hx with rfl | hx
    · exact Or.inr hy
    · exact Or.inl (h.expanded x hx y hy)

/-! ### A whole search -/

/-- With a turn for each node, the search ends with an empty queue. -/
theorem Searching.breadthFirst {nodes : List α} {fuel : ℕ}
    (hneighbors : ∀ x, ∀ y ∈ neighbors x, y ∈ nodes) (hstart : start ∈ nodes)
    (hfuel : nodes.length ≤ fuel + component.length)
    (h : Searching neighbors before start queue visited component) :
    Searching neighbors before start []
      (Foundation.breadthFirst neighbors fuel queue visited component).2
      (Foundation.breadthFirst neighbors fuel queue visited component).1 := by
  have hnodes : ∀ x, Reaches neighbors start x → x ∈ nodes := by
    intro x hx
    cases hx with
    | refl => exact hstart
    | tail _ hstep => exact hneighbors _ _ hstep
  have hlength : ∀ {queue visited component},
      Searching neighbors before start queue visited component →
        component.length + queue.length ≤ nodes.length := by
    intro queue visited component h
    rw [← List.length_append]
    refine (List.Nodup.subperm h.nodup fun x hx => ?_).length_le
    exact hnodes x (h.reached x (List.mem_append.mp hx))
  induction fuel generalizing queue visited component with
  | zero =>
    have hle := hlength h
    have hnil : queue = [] := List.eq_nil_of_length_eq_zero (by omega)
    rw [hnil] at h
    exact h
  | succ fuel ih =>
    cases queue with
    | nil => exact h
    | cons current queue =>
      have hnew : current ∉ component := fun hmem =>
        (List.nodup_append.mp h.nodup).2.2 current hmem current (List.mem_cons_self ..) rfl
      refine ih ?_ h.turn
      rw [List.length_insert_of_not_mem hnew]
      omega

omit [DecidableEq α] in
/-- **What a finished search has found is the component of its start.** -/
theorem Searching.mem_iff (hsymm : ∀ x y, y ∈ neighbors x → x ∈ neighbors y)
    (hbefore : ∀ x ∈ before, ∀ y ∈ neighbors x, y ∈ before)
    (h : Searching neighbors before start [] visited component) (x : α) :
    x ∈ component ↔ x ∈ componentOf neighbors start := by
  constructor
  · exact fun hx => h.reached x (Or.inl hx)
  · intro hx
    induction hx with
    | refl => exact h.started.resolve_right List.not_mem_nil
    | @tail y z _ hstep ih =>
      have hvisited := (h.visited_iff z).mp (h.expanded y ih z hstep)
      rcases hvisited with hz | hz | hz
      · -- the nodes visited before would have led to this component
        exact absurd (hbefore z hz y (hsymm y z hstep)) (h.fresh y (Or.inl ih))
      · exact hz
      · exact absurd hz List.not_mem_nil

/-! ### The largest component -/

omit [DecidableEq α] in
theorem Reaches.symm (hsymm : ∀ x y, y ∈ neighbors x → x ∈ neighbors y) {x y : α}
    (h : Reaches neighbors x y) : Reaches neighbors y x := by
  induction h with
  | refl => exact .refl
  | tail _ hstep ih => exact .head (hsymm _ _ hstep) ih

omit [DecidableEq α] in
/-- Two components with a common node are the same. -/
theorem componentOf_eq (hsymm : ∀ x y, y ∈ neighbors x → x ∈ neighbors y) {x y : α}
    (h : y ∈ componentOf neighbors x) : componentOf neighbors y = componentOf neighbors x := by
  ext z
  exact ⟨fun hz => h.trans hz, fun hz => (Reaches.symm hsymm h).trans hz⟩

theorem ncard_of_mem_iff {s : Set α} (hnodup : component.Nodup) (h : ∀ x, x ∈ component ↔ x ∈ s) :
    s.ncard = component.length := by
  have hs : s = ↑component.toFinset := by
    ext x
    rw [Finset.mem_coe, List.mem_toFinset, h]
  rw [hs, Set.ncard_coe_finset, List.toFinset_card_of_nodup hnodup]

/-- After some nodes have been searched from: they and all nodes of their components have been
visited, and the first of their largest components has been kept. -/
structure KeepsLargest (neighbors : α → List α) (searched : List α) (largest visited : List α) :
    Prop where
  visited_iff : ∀ x, x ∈ visited ↔ ∃ node ∈ searched, x ∈ componentOf neighbors node
  nodup : largest.Nodup
  none : searched = [] → largest = []
  bound : ∀ node ∈ searched, (componentOf neighbors node).ncard ≤ largest.length
  first : searched ≠ [] → ∃ front node back, searched = front ++ node :: back ∧
    (∀ x, x ∈ largest ↔ x ∈ componentOf neighbors node) ∧
    ∀ node' ∈ front, (componentOf neighbors node').ncard < largest.length

omit [DecidableEq α] in
theorem KeepsLargest.closed {searched largest visited : List α}
    (h : KeepsLargest neighbors searched largest visited) :
    ∀ x ∈ visited, ∀ y ∈ neighbors x, y ∈ visited := by
  intro x hx y hy
  obtain ⟨node, hnode, hreach⟩ := (h.visited_iff x).mp hx
  exact (h.visited_iff y).mpr ⟨node, hnode, hreach.tail hy⟩

variable (hsymm : ∀ x y, y ∈ neighbors x → x ∈ neighbors y)
include hsymm

omit [DecidableEq α] in
/-- A node that has been visited adds nothing. -/
theorem KeepsLargest.skip {searched largest visited : List α}
    (h : KeepsLargest neighbors searched largest visited) {node : α} (hnode : node ∈ visited) :
    KeepsLargest neighbors (searched ++ [node]) largest visited := by
  obtain ⟨node', hnode', hreach⟩ := (h.visited_iff node).mp hnode
  have hsame := componentOf_eq hsymm hreach
  refine ⟨fun x => ?_, h.nodup, fun hnil => absurd hnil (by simp), fun y hy => ?_, fun _ => ?_⟩
  · rw [h.visited_iff]
    constructor
    · rintro ⟨y, hy, hx⟩
      exact ⟨y, List.mem_append_left _ hy, hx⟩
    · rintro ⟨y, hy, hx⟩
      rcases List.mem_append.mp hy with hy | hy
      · exact ⟨y, hy, hx⟩
      · obtain rfl := List.mem_singleton.mp hy
        exact ⟨node', hnode', hsame ▸ hx⟩
  · rcases List.mem_append.mp hy with hy | hy
    · exact h.bound y hy
    · obtain rfl := List.mem_singleton.mp hy
      rw [hsame]
      exact h.bound node' hnode'
  · obtain ⟨front, first, back, rfl, hlargest, hfront⟩ := h.first (List.ne_nil_of_mem hnode')
    exact ⟨front, first, back ++ [node], by simp, hlargest, hfront⟩

/-- A new node adds its component, which is kept when it is larger. -/
theorem KeepsLargest.search {searched largest visited : List α}
    (h : KeepsLargest neighbors searched largest visited) {node : α} {component visited' : List α}
    (hsearch : Searching neighbors visited node [] visited' component) :
    KeepsLargest neighbors (searched ++ [node])
      (if largest.length < component.length then component else largest) visited' := by
  have hmem := hsearch.mem_iff hsymm h.closed
  have hnodup : component.Nodup := by simpa using hsearch.nodup
  have hcard := ncard_of_mem_iff hnodup hmem
  have hvisited : ∀ x, x ∈ visited' ↔
      ∃ y ∈ searched ++ [node], x ∈ componentOf neighbors y := by
    intro x
    rw [hsearch.visited_iff, h.visited_iff, hmem]
    simp [or_and_right, exists_or]
  by_cases hlt : largest.length < component.length
  · rw [if_pos hlt]
    refine ⟨hvisited, hnodup, fun hnil => absurd hnil (by simp), fun y hy => ?_,
      fun _ => ⟨searched, node, [], rfl, hmem, ?_⟩⟩
    · rcases List.mem_append.mp hy with hy | hy
      · exact (h.bound y hy).trans hlt.le
      · obtain rfl := List.mem_singleton.mp hy
        exact hcard.le
    · exact fun y hy => (h.bound y hy).trans_lt hlt
  · rw [if_neg hlt]
    refine ⟨hvisited, h.nodup, fun hnil => absurd hnil (by simp), fun y hy => ?_, fun _ => ?_⟩
    · rcases List.mem_append.mp hy with hy | hy
      · exact h.bound y hy
      · obtain rfl := List.mem_singleton.mp hy
        rw [hcard]
        exact Nat.le_of_not_lt hlt
    · -- a component is not empty, so some node has been searched from
      have hpos : 0 < component.length := List.length_pos_of_mem ((hmem node).mpr .refl)
      have hne : searched ≠ [] := by
        intro hnil
        rw [h.none hnil] at hlt
        exact hlt hpos
      obtain ⟨front, first, back, rfl, hlargest, hfront⟩ := h.first hne
      exact ⟨front, first, back ++ [node], by simp, hlargest, hfront⟩

/-- **The first of the largest components.**  It is the component of a node, no component is larger,
and those of the nodes before are smaller. -/
theorem largestComponent_spec {nodes : List α} {fuel : ℕ}
    (hneighbors : ∀ x, ∀ y ∈ neighbors x, y ∈ nodes) (hfuel : nodes.length ≤ fuel)
    (hnodes : nodes ≠ []) : ∃ front node back, nodes = front ++ node :: back ∧
      (∀ x, x ∈ largestComponent neighbors fuel nodes ↔ x ∈ componentOf neighbors node) ∧
      (∀ node' ∈ front,
        (componentOf neighbors node').ncard < (componentOf neighbors node).ncard) ∧
      ∀ node' ∈ nodes, (componentOf neighbors node').ncard ≤ (componentOf neighbors node).ncard := by
  have hloop : ∀ searched, searched <+: nodes → KeepsLargest neighbors searched
      (searched.foldl (searchFrom neighbors fuel) ([], [])).1
      (searched.foldl (searchFrom neighbors fuel) ([], [])).2 := by
    intro searched hprefix
    induction searched using List.reverseRecOn with
    | nil => exact ⟨by simp, List.nodup_nil, fun _ => rfl, by simp, fun h => absurd rfl h⟩
    | append_singleton searched node ih =>
      have hkeeps := ih ((List.prefix_append _ _).trans hprefix)
      rw [List.foldl_append, List.foldl_cons, List.foldl_nil, searchFrom]
      by_cases hnode : node ∈ (searched.foldl (searchFrom neighbors fuel) ([], [])).2
      · rw [if_pos hnode]
        exact hkeeps.skip hsymm hnode
      · rw [if_neg hnode]
        refine hkeeps.search hsymm ?_
        have hmem : node ∈ nodes :=
          hprefix.subset (List.mem_append_right _ (List.mem_singleton.mpr rfl))
        exact (Searching.init hnode).breadthFirst hneighbors hmem (by simpa using hfuel)
  have hkeeps := hloop nodes (List.prefix_refl _)
  obtain ⟨front, node, back, heq, hlargest, hfront⟩ := hkeeps.first hnodes
  have hcard := ncard_of_mem_iff hkeeps.nodup hlargest
  refine ⟨front, node, back, heq, hlargest, fun node' hnode' => ?_, fun node' hnode' => ?_⟩
  · rw [hcard]
    exact hfront node' hnode'
  · rw [hcard]
    exact hkeeps.bound node' hnode'

end GraphLoom.Foundation
