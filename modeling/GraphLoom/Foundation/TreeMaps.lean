import Mathlib.Data.Finset.Card
import Mathlib.Data.List.Sort

/-!
# Maps and sets with sorted keys

`BTreeMap` and `BTreeSet` are the extensional tree maps and sets.  Two of them are equal when they
have the same entries, in whatever order these have been inserted.

An index holds the positions of rows rather than the rows.  What is read back through the positions
of the rows with some property, in ascending order, are these rows in the order of the table
(`filterMap_positions`, `filterMap_toList`).
-/

namespace GraphLoom.Foundation

open Std

section SortedKeys

variable {α β κ : Type} [DecidableEq κ] [Ord κ] [TransOrd κ] [LawfulEqOrd κ]

/-! ### Maps -/

/-- An index of the rows by a key that tells them apart. -/
theorem getElem?_ofList_iff {key : α → κ} {value : α → β} {rows : List α}
    (h : (rows.map key).Nodup) {k : κ} {v : β} :
    (ExtTreeMap.ofList (rows.map fun row => (key row, value row)))[k]? = some v ↔
      ∃ row ∈ rows, key row = k ∧ value row = v := by
  have hdistinct : (rows.map fun row => (key row, value row)).Pairwise fun a b =>
      ¬ compare a.1 b.1 = .eq := by
    rw [List.pairwise_map]
    refine (List.pairwise_map.mp h).imp fun hne heq => hne (LawfulEqCmp.eq_of_compare heq)
  have hfound : ∀ row ∈ rows,
      (ExtTreeMap.ofList (rows.map fun row => (key row, value row)))[key row]? =
        some (value row) := by
    intro row hrow
    exact ExtTreeMap.getElem?_ofList_of_mem ReflCmp.compare_self hdistinct
      (List.mem_map.mpr ⟨row, hrow, rfl⟩)
  constructor
  · intro hget
    by_cases hk : ∃ row ∈ rows, key row = k
    · obtain ⟨row, hrow, rfl⟩ := hk
      rw [hfound row hrow] at hget
      exact ⟨row, hrow, rfl, Option.some.inj hget⟩
    · have hnone : (ExtTreeMap.ofList (rows.map fun row => (key row, value row)))[k]? = none := by
        refine ExtTreeMap.getElem?_ofList_of_contains_eq_false ?_
        rw [← Bool.not_eq_true, List.contains_iff_mem, List.map_map]
        intro hmem
        obtain ⟨row, hrow, rfl⟩ := List.mem_map.mp hmem
        exact hk ⟨row, hrow, rfl⟩
      rw [hnone] at hget
      cases hget
  · rintro ⟨row, hrow, rfl, rfl⟩
    exact hfound row hrow

/-- Of several rows with one key, a map has the last. -/
theorem getElem?_ofList_last {key : α → κ} {value : α → β} {rows : List α} {k : κ} :
    (ExtTreeMap.ofList (rows.map fun row => (key row, value row)))[k]? =
      (rows.reverse.find? fun row => key row = k).map value := by
  rw [ExtTreeMap.ofList_eq_insertMany_empty, ExtTreeMap.getElem?_insertMany_list,
    ExtTreeMap.getElem?_empty, Option.or_none, List.findSomeRev?_eq_findSome?_reverse,
    ← List.map_reverse, List.findSome?_map]
  induction rows.reverse with
  | nil => rfl
  | cons row rows ih =>
    rw [List.findSome?_cons, List.find?_cons]
    by_cases hk : key row = k
    · simp [hk]
    · simpa [hk] using ih

/-- `entry(key).or_default().push(value)`. -/
def pushAt (m : ExtTreeMap κ (List β)) (k : κ) (v : β) : ExtTreeMap κ (List β) :=
  m.alter k fun values => some (values.getD [] ++ [v])

theorem getD_pushAt {m : ExtTreeMap κ (List β)} {k k' : κ} {v : β} :
    (pushAt m k v)[k']?.getD [] = m[k']?.getD [] ++ if k = k' then [v] else [] := by
  unfold pushAt
  rw [ExtTreeMap.getElem?_alter]
  by_cases hk : k = k'
  · subst hk
    rw [if_pos ReflCmp.compare_self, if_pos rfl, Option.getD_some]
  · have hne : ¬ compare k k' = .eq := fun heq => hk (LawfulEqCmp.eq_of_compare heq)
    rw [if_neg hne, if_neg hk, List.append_nil]

/-- The rows of each key, in their order. -/
theorem getD_foldl_pushAt {key : β → κ} {rows : List β} {m : ExtTreeMap κ (List β)} {k : κ} :
    (rows.foldl (fun m row => pushAt m (key row) row) m)[k]?.getD [] =
      m[k]?.getD [] ++ rows.filter fun row => key row = k := by
  induction rows generalizing m with
  | nil => simp
  | cons row rows ih =>
    rw [List.foldl_cons, ih, getD_pushAt, List.filter_cons, List.append_assoc]
    by_cases hk : key row = k <;> simp [hk]

/-! ### Sets -/

/-- The elements of a set. -/
def pointsOf (s : ExtTreeSet κ) : Finset κ := s.toList.toFinset

@[simp]
theorem mem_pointsOf {s : ExtTreeSet κ} {k : κ} : k ∈ pointsOf s ↔ k ∈ s := by
  unfold pointsOf
  rw [List.mem_toFinset, ExtTreeSet.mem_toList]

omit [DecidableEq κ] in
theorem toList_nodup (s : ExtTreeSet κ) : s.toList.Nodup := by
  refine ExtTreeSet.distinct_toList.imp ?_
  rintro a b hne rfl
  exact hne ReflCmp.compare_self

theorem card_pointsOf (s : ExtTreeSet κ) : (pointsOf s).card = s.size := by
  unfold pointsOf
  rw [List.toFinset_card_of_nodup (toList_nodup s), ExtTreeSet.length_toList]

@[simp]
theorem pointsOf_empty : pointsOf (∅ : ExtTreeSet κ) = ∅ := by
  ext k
  simp

@[simp]
theorem pointsOf_insert {s : ExtTreeSet κ} {k : κ} :
    pointsOf (s.insert k) = insert k (pointsOf s) := by
  ext k'
  rw [mem_pointsOf, ExtTreeSet.mem_insert, Finset.mem_insert, mem_pointsOf,
    LawfulEqCmp.compare_eq_iff_eq, @eq_comm _ k k']

@[simp]
theorem mem_ofList {ks : List κ} {k : κ} : k ∈ ExtTreeSet.ofList ks ↔ k ∈ ks := by
  rw [ExtTreeSet.mem_ofList, List.contains_iff_mem]

/-- The elements of a set of strings come in ascending order. -/
theorem toList_sorted (s : ExtTreeSet String) : s.toList.Pairwise (· < ·) := by
  have hlt : ∀ {a b : String}, compare a b = .lt → a < b := compareOfLessAndEq_eq_lt.mp
  exact ExtTreeSet.ordered_toList.imp hlt

theorem nodup_of_sorted {ks : List String} (h : ks.Pairwise (· < ·)) : ks.Nodup := by
  refine h.imp ?_
  rintro a _ hlt rfl
  exact String.lt_irrefl a hlt

end SortedKeys

/-! ## Positions in a table -/

section Positions

variable {α κ : Type} {xs : List α} {p : α → Prop} [DecidablePred p]

/-- The positions of the rows with a property. -/
def positions (p : α → Prop) [DecidablePred p] (xs : List α) : List ℕ :=
  (xs.zipIdx.filter fun row => p row.1).map (·.2)

theorem mem_positions {i : ℕ} : i ∈ positions p xs ↔ ∃ x, xs[i]? = some x ∧ p x := by
  unfold positions
  rw [List.mem_map]
  constructor
  · rintro ⟨⟨x, i'⟩, hmem, rfl⟩
    obtain ⟨hrow, hp⟩ := List.mem_filter.mp hmem
    exact ⟨x, List.mk_mem_zipIdx_iff_getElem?.mp hrow, of_decide_eq_true hp⟩
  · rintro ⟨x, hx, hp⟩
    exact ⟨(x, i), List.mem_filter.mpr
      ⟨List.mk_mem_zipIdx_iff_getElem?.mpr hx, decide_eq_true hp⟩, rfl⟩

theorem positions_pairwise : (positions p xs).Pairwise (· < ·) := by
  have hall : (xs.zipIdx.map (·.2)).Pairwise (· < ·) := by
    rw [List.zipIdx_map_snd]
    exact List.pairwise_lt_range'
  exact hall.sublist (List.Sublist.map _ List.filter_sublist)

/-- The rows are read back in their order. -/
theorem filterMap_positions : (positions p xs).filterMap (xs[·]?) = xs.filter fun x => p x := by
  have hrow : ∀ row ∈ xs.zipIdx.filter fun row => p row.1, xs[row.2]? = some row.1 := by
    intro row hrow
    exact List.mk_mem_zipIdx_iff_getElem?.mp (List.mem_filter.mp hrow).1
  calc (positions p xs).filterMap (xs[·]?)
      = (xs.zipIdx.filter fun row => p row.1).filterMap fun row => xs[row.2]? := by
        unfold positions
        rw [List.filterMap_map]
        rfl
    _ = (xs.zipIdx.filter fun row => p row.1).filterMap fun row => some row.1 :=
        List.filterMap_congr hrow
    _ = (xs.zipIdx.map (·.1)).filter fun x => p x := by
        rw [List.filterMap_eq_map', List.filter_map]
        rfl
    _ = xs.filter fun x => p x := by rw [List.zipIdx_map_fst]

/-- The rows at the first positions. -/
theorem map_filter_zipIdx (xs : List α) (count start : ℕ) :
    ((xs.zipIdx start).filter fun row => row.2 < start + count).map (·.1) = xs.take count := by
  induction xs generalizing count start with
  | nil => simp
  | cons x xs ih =>
    cases count with
    | zero =>
      have hnone : (((x :: xs).zipIdx start).filter fun row => row.2 < start + 0) = [] := by
        refine List.filter_eq_nil_iff.mpr fun row hrow => ?_
        have hle := List.le_snd_of_mem_zipIdx hrow
        rw [decide_eq_true_eq]
        omega
      rw [hnone]
      rfl
    | succ count =>
      have hrest := ih count (start + 1)
      rw [Nat.add_assoc, Nat.add_comm 1 count] at hrest
      rw [List.zipIdx_cons, List.filter_cons]
      simp [hrest]

theorem eq_of_pairwise_lt {is js : List ℕ} (his : is.Pairwise (· < ·)) (hjs : js.Pairwise (· < ·))
    (h : ∀ i, i ∈ is ↔ i ∈ js) : is = js := by
  have hperm : is.Perm js :=
    (List.perm_ext_iff_of_nodup (his.imp fun hlt => hlt.ne) (hjs.imp fun hlt => hlt.ne)).mpr h
  exact hperm.eq_of_pairwise (fun a b _ _ hab hba => absurd hab hba.asymm) his hjs

/-- A set of the positions is read in ascending order, so that each row is read once. -/
theorem filterMap_toList {s : ExtTreeSet ℕ} (h : ∀ i, i ∈ s ↔ ∃ x, xs[i]? = some x ∧ p x) :
    s.toList.filterMap (xs[·]?) = xs.filter fun x => p x := by
  have hsorted : s.toList.Pairwise (· < ·) :=
    ExtTreeSet.ordered_toList.imp fun hlt => Nat.compare_eq_lt.mp hlt
  have hlist : s.toList = positions p xs := by
    refine eq_of_pairwise_lt hsorted positions_pairwise fun i => ?_
    rw [ExtTreeSet.mem_toList, h, mem_positions]
  rw [hlist, filterMap_positions]

/-! ### The last row with a key -/

section LastRow

variable [Ord κ] [TransOrd κ] [LawfulEqOrd κ] [DecidableEq κ] {key : α → κ} {k : κ}

omit [Ord κ] [TransOrd κ] [LawfulEqOrd κ] in
theorem findSome?_bind {rows : List (α × ℕ)} (h : ∀ row ∈ rows, xs[row.2]? = some row.1) :
    (rows.findSome? fun row => if key row.1 = k then some row.2 else none).bind (xs[·]?) =
      (rows.map (·.1)).find? fun x => key x = k := by
  induction rows with
  | nil => rfl
  | cons row rows ih =>
    rw [List.findSome?_cons, List.map_cons, List.find?_cons]
    by_cases hk : key row.1 = k
    · simp only [hk, if_true, decide_true, Option.bind_some]
      exact h row (List.mem_cons_self ..)
    · simp only [hk, if_false, decide_false]
      exact ih fun row' hrow' => h row' (List.mem_cons_of_mem _ hrow')

/-- Of several rows with one key, a map of positions leads to the last one. -/
theorem getElem?_ofList_zipIdx :
    ((ExtTreeMap.ofList (xs.zipIdx.map fun row => (key row.1, row.2)))[k]?).bind (xs[·]?) =
      xs.reverse.find? fun x => key x = k := by
  have hrows : ∀ row ∈ xs.zipIdx.reverse, xs[row.2]? = some row.1 := fun row hrow =>
    List.mk_mem_zipIdx_iff_getElem?.mp (List.mem_reverse.mp hrow)
  have hlookup : (ExtTreeMap.ofList (xs.zipIdx.map fun row => (key row.1, row.2)))[k]? =
      xs.zipIdx.reverse.findSome? fun row => if key row.1 = k then some row.2 else none := by
    rw [ExtTreeMap.ofList_eq_insertMany_empty, ExtTreeMap.getElem?_insertMany_list,
      ExtTreeMap.getElem?_empty, Option.or_none, List.findSomeRev?_eq_findSome?_reverse,
      ← List.map_reverse, List.findSome?_map]
    simp only [Function.comp_def, LawfulEqCmp.compare_eq_iff_eq]
  rw [hlookup, findSome?_bind hrows, List.map_reverse, List.zipIdx_map_fst]

end LastRow

end Positions

end GraphLoom.Foundation
