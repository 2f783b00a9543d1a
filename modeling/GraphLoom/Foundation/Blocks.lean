import Mathlib.Data.List.Basic
import Mathlib.Algebra.GroupWithZero.Nat

/-!
# Blocks of rows

A list is put together from blocks.  Two ways to make the blocks agree on each block when they agree
on the whole list, as long as one never makes more of a block than the other: for numbers that are
added (`sum_map_eq_iff`), and for rows of two kinds of which only the rows of each kind are known
(`blocks_eq_iff`).
-/

namespace GraphLoom.Foundation

variable {α β γ ι : Type*}

/-! ### Sums -/

/-- Sums of terms that are ordered are equal when the terms are. -/
theorem sum_map_eq_iff {f g : α → ℕ} {l : List α} (h : ∀ a ∈ l, g a ≤ f a) :
    (l.map f).sum = (l.map g).sum ↔ ∀ a ∈ l, f a = g a := by
  induction l with
  | nil => simp
  | cons a l ih =>
    have hl := fun b hb => h b (List.mem_cons_of_mem a hb)
    have ha := h a (List.mem_cons_self ..)
    have hle : (l.map g).sum ≤ (l.map f).sum := by
      clear ih h
      induction l with
      | nil => exact Nat.le_refl _
      | cons b l ih =>
        have hb := hl b (List.mem_cons_self ..)
        have := ih fun c hc => hl c (List.mem_cons_of_mem b hc)
        simp only [List.map_cons, List.sum_cons]
        omega
    rw [List.forall_mem_cons, ← ih hl, List.map_cons, List.map_cons, List.sum_cons, List.sum_cons]
    omega

/-! ### Rows of two kinds -/

theorem length_eq_left_add_right (rows : List (α ⊕ β)) : rows.length =
    (rows.filterMap Sum.getLeft?).length + (rows.filterMap Sum.getRight?).length := by
  induction rows with
  | nil => rfl
  | cons row rows ih =>
    cases row with
    | inl a =>
      simp only [List.filterMap_cons, Sum.getLeft?_inl, Sum.getRight?_inl, List.length_cons]
      omega
    | inr b =>
      simp only [List.filterMap_cons, Sum.getLeft?_inr, Sum.getRight?_inr, List.length_cons]
      omega

/-- Rows are determined by their kinds and by the rows of each kind. -/
theorem rows_eq {rows rows' : List (α ⊕ β)} (hkinds : rows.map Sum.isLeft = rows'.map Sum.isLeft)
    (hleft : rows.filterMap Sum.getLeft? = rows'.filterMap Sum.getLeft?)
    (hright : rows.filterMap Sum.getRight? = rows'.filterMap Sum.getRight?) : rows = rows' := by
  induction rows generalizing rows' with
  | nil =>
    rw [List.map_nil, eq_comm, List.map_eq_nil_iff] at hkinds
    exact hkinds.symm
  | cons row rows ih =>
    cases rows' with
    | nil => cases hkinds
    | cons row' rows' =>
      obtain ⟨hkind, htail⟩ := List.cons.inj hkinds
      cases row with
      | inl a =>
        cases row' with
        | inr b => cases hkind
        | inl a' =>
          simp only [List.filterMap_cons, Sum.getLeft?_inl] at hleft
          obtain ⟨rfl, hlefts⟩ := List.cons.inj hleft
          rw [ih htail hlefts hright]
      | inr b =>
        cases row' with
        | inl a => cases hkind
        | inr b' =>
          simp only [List.filterMap_cons, Sum.getRight?_inr] at hright
          obtain ⟨rfl, hrights⟩ := List.cons.inj hright
          rw [ih htail hleft hrights]

/-- Blocks of the same lengths are equal when they are so together. -/
theorem flatMap_inj {f g : ι → List γ} {blocks : List ι}
    (hlength : ∀ i ∈ blocks, (f i).length = (g i).length) :
    blocks.flatMap f = blocks.flatMap g ↔ ∀ i ∈ blocks, f i = g i := by
  induction blocks with
  | nil => simp
  | cons i blocks ih =>
    obtain ⟨hi, hrest⟩ := List.forall_mem_cons.mp hlength
    rw [List.flatMap_cons, List.flatMap_cons, List.forall_mem_cons, ← ih hrest]
    constructor
    · exact fun heq => List.append_inj heq hi
    · rintro ⟨heq, hrest⟩
      rw [heq, hrest]

/-- Blocks that have no more rows, and rows of the same kinds when they have as many, are equal when
the rows of each kind are so together. -/
theorem blocks_eq_iff {f g : ι → List (α ⊕ β)} {blocks : List ι}
    (hle : ∀ i ∈ blocks, (f i).length ≤ (g i).length)
    (hkinds : ∀ i ∈ blocks, (f i).length = (g i).length →
      (f i).map Sum.isLeft = (g i).map Sum.isLeft) :
    ((blocks.flatMap f).filterMap Sum.getLeft? = (blocks.flatMap g).filterMap Sum.getLeft? ∧
      (blocks.flatMap f).filterMap Sum.getRight? = (blocks.flatMap g).filterMap Sum.getRight?) ↔
    ∀ i ∈ blocks, f i = g i := by
  constructor
  · rintro ⟨hleft, hright⟩
    have htotal : (blocks.flatMap g).length = (blocks.flatMap f).length := by
      rw [length_eq_left_add_right, length_eq_left_add_right, hleft, hright]
    rw [List.length_flatMap, List.length_flatMap, sum_map_eq_iff hle] at htotal
    have hsame : ∀ i ∈ blocks, (f i).length = (g i).length := fun i hi => (htotal i hi).symm
    have hmaps : (blocks.flatMap f).map Sum.isLeft = (blocks.flatMap g).map Sum.isLeft := by
      rw [List.map_flatMap, List.map_flatMap]
      exact List.flatMap_congr fun i hi => hkinds i hi (hsame i hi)
    exact (flatMap_inj hsame).mp (rows_eq hmaps hleft hright)
  · intro h
    rw [List.flatMap_congr h]
    exact ⟨rfl, rfl⟩

end GraphLoom.Foundation
