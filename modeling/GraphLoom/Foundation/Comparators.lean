import GraphLoom.Foundation.Json
import Mathlib.Data.List.Sort

/-!
# Sorting with a comparator

A list that is sorted with a comparator does not depend on the order of the elements when no two of
them are tied (`sortBy_eq_of_perm`), and each of its elements comes before the later ones then
(`sortBy_pairwise_lt`).  Floats are compared by their total order.
-/

namespace GraphLoom.Foundation

open Std

variable {α β : Type} {cmp : α → α → Ordering} {xs ys : List α}

/-- `slice::sort_by`. -/
def sortBy (cmp : α → α → Ordering) (xs : List α) : List α := xs.mergeSort fun a b => (cmp a b).isLE

theorem sortBy_perm : (sortBy cmp xs).Perm xs := List.mergeSort_perm xs _

@[simp]
theorem mem_sortBy {a : α} : a ∈ sortBy cmp xs ↔ a ∈ xs := List.mem_mergeSort

@[simp]
theorem length_sortBy : (sortBy cmp xs).length = xs.length := List.length_mergeSort xs

theorem sortBy_eq_self (h : xs.length ≤ 1) : sortBy cmp xs = xs := by
  match xs, h with
  | [], _ => exact List.mergeSort_nil
  | [a], _ => exact List.mergeSort_singleton a

/-- No two elements are tied. -/
def NoTies (cmp : α → α → Ordering) (xs : List α) : Prop :=
  ∀ a ∈ xs, ∀ b ∈ xs, cmp a b = .eq → a = b

theorem isLE_total [TransCmp cmp] (a b : α) : (cmp a b).isLE || (cmp b a).isLE := by
  have hswap : cmp b a = (cmp a b).swap := OrientedCmp.eq_swap
  rw [hswap]
  cases cmp a b <;> rfl

theorem sortBy_pairwise [TransCmp cmp] : (sortBy cmp xs).Pairwise fun a b => (cmp a b).isLE := by
  exact List.pairwise_mergeSort (fun _ _ _ => TransCmp.isLE_trans) isLE_total xs

theorem sortBy_eq_of_perm [TransCmp cmp] (h : xs.Perm ys) (hties : NoTies cmp xs) :
    sortBy cmp xs = sortBy cmp ys := by
  refine List.Perm.eq_of_pairwise (fun a b ha hb hab hba => ?_) sortBy_pairwise sortBy_pairwise
    (sortBy_perm.trans (h.trans sortBy_perm.symm))
  exact hties a (mem_sortBy.mp ha) b (h.mem_iff.mpr (mem_sortBy.mp hb))
    (OrientedCmp.isLE_antisymm hab hba)

/-- Sorted elements that are not tied come one before the other. -/
theorem sortBy_pairwise_lt [TransCmp cmp] (hnodup : xs.Nodup) (hties : NoTies cmp xs) :
    (sortBy cmp xs).Pairwise fun a b => cmp a b = .lt := by
  have hsorted : (sortBy cmp xs).Nodup := sortBy_perm.nodup_iff.mpr hnodup
  refine (sortBy_pairwise.and hsorted).imp_of_mem fun {a b} ha hb h => ?_
  obtain ⟨hle, hne⟩ := h
  cases hcmp : cmp a b with
  | lt => rfl
  | eq => exact absurd (hties a (mem_sortBy.mp ha) b (mem_sortBy.mp hb) hcmp) hne
  | gt =>
    rw [hcmp] at hle
    cases hle

/-- A map that keeps the order of the elements can be done before or after sorting. -/
theorem map_sortBy {cmp' : β → β → Ordering} {f : α → β} (h : ∀ a b, cmp' (f a) (f b) = cmp a b) :
    (sortBy cmp xs).map f = sortBy cmp' (xs.map f) := by
  unfold sortBy
  rw [List.map_mergeSort]
  intro a _ b _
  rw [h a b]

/-- Only the elements of a list are compared. -/
theorem sortBy_congr {cmp' : α → α → Ordering}
    (h : ∀ a ∈ xs, ∀ b ∈ xs, cmp a b = cmp' a b) : sortBy cmp xs = sortBy cmp' xs := by
  unfold sortBy
  have hmap := @List.map_mergeSort _ _ (fun a b => (cmp a b).isLE) (fun a b => (cmp' a b).isLE) id
    xs (fun a ha b hb => by rw [h a ha b hb]; rfl)
  rwa [List.map_id, List.map_id] at hmap

/-! ### Ties -/

/-- Elements that are tied stay in their order. -/
theorem filter_sortBy [TransCmp cmp] (a : α) :
    (sortBy cmp xs).filter (fun b => cmp a b = .eq) = xs.filter fun b => cmp a b = .eq := by
  have hties : (xs.filter fun b => cmp a b = .eq).Pairwise fun b c => (cmp b c).isLE := by
    refine List.pairwise_iff_forall_sublist.mpr fun {b c} hsub => ?_
    have hb := of_decide_eq_true (List.mem_filter.mp (hsub.subset (List.mem_cons_self ..))).2
    have hc := of_decide_eq_true
      (List.mem_filter.mp (hsub.subset (List.mem_cons_of_mem _ (List.mem_cons_self ..)))).2
    have heq : cmp b c = .eq := TransCmp.eq_trans (OrientedCmp.eq_symm hb) hc
    rw [heq]
    rfl
  have hsub : (xs.filter fun b => cmp a b = .eq).Sublist (sortBy cmp xs) :=
    List.sublist_mergeSort (fun _ _ _ => TransCmp.isLE_trans) isLE_total hties List.filter_sublist
  have hsub' := hsub.filter fun b => cmp a b = .eq
  rw [List.filter_filter] at hsub'
  simp only [Bool.and_self] at hsub'
  exact (hsub'.eq_of_length (sortBy_perm.symm.filter _).length_eq).symm

/-- Sorted rows come by the comparator, and tied ones as before. -/
theorem sortBy_pairwise_stable [TransCmp cmp] {r : α → α → Prop} (h : xs.Pairwise r) :
    (sortBy cmp xs).Pairwise fun a b => cmp a b = .lt ∨ cmp a b = .eq ∧ r a b := by
  refine List.pairwise_iff_forall_sublist.mpr fun {a b} hsub => ?_
  have hle := List.pairwise_iff_forall_sublist.mp sortBy_pairwise hsub
  cases hcmp : cmp a b with
  | lt => exact .inl rfl
  | gt =>
    rw [hcmp] at hle
    cases hle
  | eq =>
    -- both are among those that are tied with the first
    have htied := hsub.filter fun c => cmp a c = .eq
    rw [filter_sortBy, List.filter_cons_of_pos (by simp [ReflCmp.compare_self]),
      List.filter_cons_of_pos (by simp [hcmp]), List.filter_nil] at htied
    exact .inr ⟨rfl, List.pairwise_iff_forall_sublist.mp h (htied.trans List.filter_sublist)⟩

theorem mem_iff_of_filter_eq [TransCmp cmp]
    (h : ∀ a, xs.filter (fun b => cmp a b = .eq) = ys.filter fun b => cmp a b = .eq) (a : α) :
    a ∈ xs ↔ a ∈ ys := by
  have hfilter : ∀ zs : List α, a ∈ zs ↔ a ∈ zs.filter fun b => cmp a b = .eq := by
    intro zs
    rw [List.mem_filter]
    exact ⟨fun h => ⟨h, decide_eq_true ReflCmp.compare_self⟩, And.left⟩
  rw [hfilter xs, hfilter ys, h a]

/-- A sorted list is known from its ties. -/
theorem eq_of_pairwise_of_filter_eq [TransCmp cmp] (hxs : xs.Pairwise fun a b => (cmp a b).isLE)
    (hys : ys.Pairwise fun a b => (cmp a b).isLE)
    (h : ∀ a, xs.filter (fun b => cmp a b = .eq) = ys.filter fun b => cmp a b = .eq) :
    xs = ys := by
  have hself : ∀ a, cmp a a = .eq := fun _ => ReflCmp.compare_self
  induction xs generalizing ys with
  | nil =>
    cases ys with
    | nil => rfl
    | cons y ys =>
      exact absurd ((mem_iff_of_filter_eq h y).mpr (List.mem_cons_self ..)) List.not_mem_nil
  | cons x xs ih =>
    cases ys with
    | nil => exact absurd ((mem_iff_of_filter_eq h x).mp (List.mem_cons_self ..)) List.not_mem_nil
    | cons y ys =>
      obtain ⟨hx, hxs'⟩ := List.pairwise_cons.mp hxs
      obtain ⟨hy, hys'⟩ := List.pairwise_cons.mp hys
      -- the first elements are tied, so both are the first of their ties
      have hxy : (cmp x y).isLE := by
        rcases List.mem_cons.mp ((mem_iff_of_filter_eq h y).mpr (List.mem_cons_self ..)) with
          rfl | hin
        · rw [hself y]
          rfl
        · exact hx y hin
      have hyx : (cmp y x).isLE := by
        rcases List.mem_cons.mp ((mem_iff_of_filter_eq h x).mp (List.mem_cons_self ..)) with
          rfl | hin
        · rw [hself x]
          rfl
        · exact hy x hin
      have htied : cmp x y = .eq := OrientedCmp.isLE_antisymm hxy hyx
      have hfirst := h x
      simp only [List.filter_cons, hself x, htied, decide_true, if_true] at hfirst
      obtain ⟨rfl, -⟩ := List.cons.inj hfirst
      have hrest : ∀ a, xs.filter (fun b => cmp a b = .eq) = ys.filter fun b => cmp a b = .eq := by
        intro a
        have ha := h a
        rw [List.filter_cons, List.filter_cons] at ha
        split_ifs at ha with htie
        · exact (List.cons.inj ha).2
        · exact ha
      rw [ih hxs' hys' hrest]

/-- Sorting before does not matter when it puts all that is tied later into its order. -/
theorem sortBy_sortBy {cmp' : α → α → Ordering} [TransCmp cmp] [TransCmp cmp']
    (h : ∀ a b, cmp' a b = .eq → cmp a b = .eq) :
    sortBy cmp' (sortBy cmp xs) = sortBy cmp' xs := by
  refine eq_of_pairwise_of_filter_eq sortBy_pairwise sortBy_pairwise fun a => ?_
  have hfilter : ∀ zs : List α, zs.filter (fun b => cmp' a b = .eq) =
      (zs.filter fun b => cmp a b = .eq).filter fun b => cmp' a b = .eq := by
    intro zs
    rw [List.filter_filter]
    refine List.filter_congr fun b _ => ?_
    by_cases hb : cmp' a b = .eq
    · rw [decide_eq_true hb, decide_eq_true (h a b hb)]
      rfl
    · rw [decide_eq_false hb]
      rfl
  rw [filter_sortBy, filter_sortBy, hfilter (sortBy cmp xs), filter_sortBy, ← hfilter xs]

/-! ### Comparators from comparators -/

/-- The opposite comparator. -/
theorem transCmp_swap [TransCmp cmp] : TransCmp fun a b => (cmp a b).swap := by
  have hswap : (fun a b => (cmp a b).swap) = fun a b => cmp b a := by
    funext a b
    rw [← OrientedCmp.eq_swap]
  rw [hswap]
  exact TransCmp.opposite

/-- Comparing what is computed from the elements. -/
theorem transCmp_on {cmp : β → β → Ordering} [TransCmp cmp] (f : α → β) :
    TransCmp fun a b => cmp (f a) (f b) where
  eq_swap := OrientedCmp.eq_swap
  isLE_trans := TransCmp.isLE_trans

/-! ### The orders of floats -/

namespace F64

def isNaN (x : F64) : Bool := x.bits.extractLsb' 52 11 == 0x7FF#11 && x.bits.extractLsb' 0 52 != 0#52

/-- `x >= 0.0`, which holds of the negative zero and not of a NaN. -/
def geZero (x : F64) : Bool := !x.isNaN && (!x.bits.msb || x.isZero)

/-- Between the zeros and a positive float that is given by its bits. -/
def between (upper : BitVec 64) (x : F64) : Bool :=
  x.isZero || (!x.bits.msb && x.bits.toNat ≤ upper.toNat)

/-- The place of a float in the total order.  The magnitude bits of a negative float are flipped. -/
def totalKey (x : F64) : ℤ :=
  if x.bits.msb then (x.bits ^^^ 0x7FFFFFFFFFFFFFFF#64).toInt else x.bits.toInt

/-- `f64::total_cmp`. -/
def totalCmp (x y : F64) : Ordering := compare x.totalKey y.totalKey

instance : TransCmp totalCmp := @transCmp_on _ _ compare _ totalKey

end F64

end GraphLoom.Foundation
