import Mathlib.Data.Finset.Card
import Mathlib.Data.List.Sort

/-!
# Greedy selection

`LongestPrefix fits length count` says that of a list of `length` items the first `count` are taken
by going on while the next prefix fits.  A loop that takes items one after another proves it from
the end: nothing is left (`LongestPrefix.nil`), the first item does not fit (`LongestPrefix.stop`),
or it does and the rest goes on from it (`LongestPrefix.step`).

`GreedyFrom fits earlier candidates taken` says that going through the candidates in their order and
taking each one that fits to what has been taken before it, first of all `earlier`, takes `taken`.

Where each item covers some points, an item fits while neither the limit on the items nor the limit
on the points is exceeded (`Fits`).
-/

namespace GraphLoom.Foundation

section LongestPrefixes

variable {fits : ℕ → Prop} {length count count' : ℕ}

/-- `fits i` says that the first `i` items fit. -/
structure LongestPrefix (fits : ℕ → Prop) (length count : ℕ) : Prop where
  le : count ≤ length
  reached : ∀ i, 0 < i → i ≤ count → fits i
  stops : count < length → ¬ fits (count + 1)

namespace LongestPrefix

theorem nil : LongestPrefix fits 0 0 := ⟨le_rfl, by omega, by omega⟩

theorem stop (h : ¬ fits 1) : LongestPrefix fits length 0 :=
  ⟨Nat.zero_le length, by omega, fun _ => h⟩

theorem step (hfits : fits 1) (h : LongestPrefix (fun i => fits (i + 1)) length count) :
    LongestPrefix fits (length + 1) (count + 1) where
  le := Nat.succ_le_succ h.le
  reached := by
    intro i hi hle
    obtain ⟨j, rfl⟩ : ∃ j, i = j + 1 := ⟨i - 1, by omega⟩
    rcases Nat.eq_zero_or_pos j with rfl | hj
    · exact hfits
    · exact h.reached j hj (by omega)
  stops := fun hlt => h.stops (Nat.lt_of_succ_lt_succ hlt)

theorem unique (h : LongestPrefix fits length count) (h' : LongestPrefix fits length count') :
    count = count' := by
  rcases Nat.lt_trichotomy count count' with hlt | heq | hlt
  · have hnext := h'.reached (count + 1) (by omega) hlt
    exact absurd hnext (h.stops (lt_of_lt_of_le hlt h'.le))
  · exact heq
  · have hnext := h.reached (count' + 1) (by omega) hlt
    exact absurd hnext (h'.stops (lt_of_lt_of_le hlt h.le))

theorem congr {fits' : ℕ → Prop} (hfits : ∀ i, fits i ↔ fits' i)
    (h : LongestPrefix fits length count) : LongestPrefix fits' length count where
  le := h.le
  reached := fun i hi hle => (hfits i).mp (h.reached i hi hle)
  stops := fun hlt hnext => h.stops hlt ((hfits _).mpr hnext)

end LongestPrefix

end LongestPrefixes

/-! ## Greedy selection -/

section GreedySelection

variable {α β κ : Type} {fits : List α → α → Prop} {earlier candidates taken taken' : List α}

inductive GreedyFrom (fits : List α → α → Prop) : List α → List α → List α → Prop
  | done {earlier : List α} : GreedyFrom fits earlier [] []
  | take {earlier candidates taken : List α} {item : α} : fits earlier item →
      GreedyFrom fits (earlier ++ [item]) candidates taken →
      GreedyFrom fits earlier (item :: candidates) (item :: taken)
  | skip {earlier candidates taken : List α} {item : α} : ¬ fits earlier item →
      GreedyFrom fits earlier candidates taken →
      GreedyFrom fits earlier (item :: candidates) taken

namespace GreedyFrom

theorem sublist (h : GreedyFrom fits earlier candidates taken) : taken.Sublist candidates := by
  induction h with
  | done => exact .slnil
  | take _ _ ih => exact ih.cons_cons _
  | skip _ _ ih => exact ih.cons _

theorem map {f : α → β} {fits' : List β → β → Prop}
    (hfits : ∀ earlier item, fits' (earlier.map f) (f item) ↔ fits earlier item)
    (h : GreedyFrom fits earlier candidates taken) :
    GreedyFrom fits' (earlier.map f) (candidates.map f) (taken.map f) := by
  induction h with
  | done => exact .done
  | take htake _ ih =>
    refine .take ((hfits _ _).mpr htake) ?_
    rwa [List.map_append, List.map_singleton] at ih
  | skip hskip _ ih => exact .skip (fun h => hskip ((hfits _ _).mp h)) ih

/-- What holds of the items at the start and is kept by taking one that fits holds in the end. -/
theorem invariant {P : List α → Prop}
    (hstep : ∀ earlier item, P earlier → fits earlier item → P (earlier ++ [item]))
    (h : GreedyFrom fits earlier candidates taken) (hstart : P earlier) : P (earlier ++ taken) := by
  induction h with
  | done => rwa [List.append_nil]
  | take hfits _ ih =>
    have hrest := ih (hstep _ _ hstart hfits)
    rwa [List.append_assoc, List.singleton_append] at hrest
  | skip _ _ ih => exact ih hstart

end GreedyFrom

/-! ### Two limits -/

section Points

variable [DecidableEq κ] (points : α → Finset κ)

/-- The points of the items. -/
def covered (items : List α) : Finset κ := items.foldr (fun item rest => points item ∪ rest) ∅

variable {points}

@[simp]
theorem covered_nil : covered points [] = ∅ := rfl

@[simp]
theorem covered_cons {item : α} {items : List α} :
    covered points (item :: items) = points item ∪ covered points items := rfl

@[simp]
theorem covered_singleton {item : α} : covered points [item] = points item := by
  rw [covered_cons, covered_nil, Finset.union_empty]

@[simp]
theorem covered_append {items items' : List α} :
    covered points (items ++ items') = covered points items ∪ covered points items' := by
  induction items with
  | nil => simp
  | cons item items ih => rw [List.cons_append, covered_cons, covered_cons, ih, Finset.union_assoc]

@[simp]
theorem mem_covered {items : List α} {point : κ} :
    point ∈ covered points items ↔ ∃ item ∈ items, point ∈ points item := by
  induction items with
  | nil => simp
  | cons item items ih => simp [ih]

@[simp]
theorem covered_map {f : β → α} {items : List β} :
    covered points (items.map f) = covered (fun item => points (f item)) items := by
  ext point
  simp

variable (points)

/-- With the item both limits still hold. -/
def Fits (maxPoints maxItems : ℕ) (start : Finset κ) (earlier : List α) (item : α) : Prop :=
  earlier.length < maxItems ∧ (start ∪ covered points (earlier ++ [item])).card ≤ maxPoints

variable {points}

theorem fits_map {f : β → α} {maxPoints maxItems : ℕ} {start : Finset κ} {earlier : List β}
    {item : β} : Fits points maxPoints maxItems start (earlier.map f) (f item) ↔
      Fits (fun item => points (f item)) maxPoints maxItems start earlier item := by
  unfold Fits
  rw [List.length_map, ← List.map_singleton, ← List.map_append, covered_map]

/-- The limits hold in the end when they hold at the start. -/
theorem GreedyFrom.bounded {maxPoints maxItems : ℕ} {start : Finset κ}
    (h : GreedyFrom (Fits points maxPoints maxItems start) earlier candidates taken)
    (hitems : earlier.length ≤ maxItems)
    (hpoints : (start ∪ covered points earlier).card ≤ maxPoints) :
    (earlier ++ taken).length ≤ maxItems ∧
      (start ∪ covered points (earlier ++ taken)).card ≤ maxPoints := by
  refine @GreedyFrom.invariant _ _ _ _ _ (fun items => items.length ≤ maxItems ∧
    (start ∪ covered points items).card ≤ maxPoints) ?_ h ⟨hitems, hpoints⟩
  rintro earlier item - ⟨hcount, hcard⟩
  refine ⟨?_, hcard⟩
  rw [List.length_append, List.length_singleton]
  exact hcount

end Points

end GreedySelection

end GraphLoom.Foundation
