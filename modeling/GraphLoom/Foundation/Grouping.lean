import Mathlib.Data.List.Induction
import Mathlib.Data.List.Nodup
import Mathlib.Order.Lattice

/-!
# Grouping rows by a key

Rows are pushed one at a time on the groups of an ordered map.  The groups then stand in strictly
increasing key order, each one holds the rows with its key in the order in which they came, and a
key has a group when some row has it (`mem_groupBy_iff`).
-/

namespace GraphLoom.Foundation

variable {ρ κ : Type*} [LinearOrder κ]

/-- Push a row on the group of its key, in groups that stand in key order. -/
def pushGroup (k : κ) (row : ρ) : List (κ × List ρ) → List (κ × List ρ)
  | [] => [(k, [row])]
  | (k', rows) :: groups =>
    if k < k' then (k, [row]) :: (k', rows) :: groups
    else if k = k' then (k', rows ++ [row]) :: groups
    else (k', rows) :: pushGroup k row groups

/-- The groups of the rows, in key order. -/
def groupBy (key : ρ → κ) (rows : List ρ) : List (κ × List ρ) :=
  rows.foldl (fun groups row => pushGroup (key row) row groups) []

/-- The elements of a list, in strictly increasing order. -/
def sortedSet (xs : List κ) : List κ := (groupBy id xs).map Prod.fst

/-- The groups stand in strictly increasing key order. -/
def GroupsSorted (groups : List (κ × List ρ)) : Prop :=
  groups.Pairwise fun a b => a.1 < b.1

/-! ### One push -/

variable {groups : List (κ × List ρ)} {row : ρ} {k : κ}

theorem fst_of_mem_pushGroup {g : κ × List ρ}
    (h : g ∈ pushGroup k row groups) : g.1 = k ∨ ∃ g' ∈ groups, g'.1 = g.1 := by
  induction groups with
  | nil =>
    rw [pushGroup, List.mem_singleton] at h
    exact Or.inl (congrArg Prod.fst h)
  | cons head groups ih =>
    obtain ⟨k', rows⟩ := head
    rw [pushGroup] at h
    split at h
    · rcases List.mem_cons.mp h with rfl | h
      · exact Or.inl rfl
      · exact Or.inr ⟨g, h, rfl⟩
    · split at h
      · rcases List.mem_cons.mp h with rfl | h
        · exact Or.inr ⟨_, List.mem_cons_self .., rfl⟩
        · exact Or.inr ⟨g, List.mem_cons_of_mem _ h, rfl⟩
      · rcases List.mem_cons.mp h with rfl | h
        · exact Or.inr ⟨_, List.mem_cons_self .., rfl⟩
        · rcases ih h with hk | ⟨g', hg', hk⟩
          · exact Or.inl hk
          · exact Or.inr ⟨g', List.mem_cons_of_mem _ hg', hk⟩

theorem GroupsSorted.pushGroup (h : GroupsSorted groups) (k : κ)
    (row : ρ) : GroupsSorted (pushGroup k row groups) := by
  induction groups with
  | nil => exact List.pairwise_singleton _ _
  | cons head groups ih =>
    obtain ⟨k', rows⟩ := head
    obtain ⟨hhead, hrest⟩ := List.pairwise_cons.mp h
    rw [Foundation.pushGroup]
    split
    · next hlt =>
      refine List.pairwise_cons.mpr ⟨fun g hg => ?_, h⟩
      rcases List.mem_cons.mp hg with rfl | hg
      · exact hlt
      · exact hlt.trans (hhead g hg)
    · next hnlt =>
      split
      · exact List.pairwise_cons.mpr ⟨hhead, hrest⟩
      · next hne =>
        have hlt : k' < k := lt_of_le_of_ne (not_lt.mp hnlt) (Ne.symm hne)
        refine List.pairwise_cons.mpr ⟨fun g hg => ?_, ih hrest⟩
        rcases fst_of_mem_pushGroup hg with hk | ⟨g', hg', hk⟩
        · rw [hk]
          exact hlt
        · rw [← hk]
          exact hhead g' hg'

variable {rows : List ρ}

/-- The other groups stay as they are. -/
theorem mem_pushGroup_of_ne {k k' : κ}
    (hk : k' ≠ k) : (k', rows) ∈ pushGroup k row groups ↔ (k', rows) ∈ groups := by
  induction groups with
  | nil => simp [pushGroup, hk]
  | cons head groups ih =>
    obtain ⟨k'', rows'⟩ := head
    rw [pushGroup]
    split
    · simp [hk]
    · split
      · next heq =>
        rw [← heq]
        simp [hk]
      · rw [List.mem_cons, List.mem_cons, ih]

/-- The group of the pushed row is the old one with the row at its end. -/
theorem mem_pushGroup_self (hsorted : GroupsSorted groups) : (k, rows) ∈ pushGroup k row groups ↔
      (∃ old, (k, old) ∈ groups ∧ rows = old ++ [row]) ∨
        (∀ old, (k, old) ∉ groups) ∧ rows = [row] := by
  induction groups with
  | nil => simp [pushGroup]
  | cons head groups ih =>
    obtain ⟨k', old'⟩ := head
    obtain ⟨hhead, hrest⟩ := List.pairwise_cons.mp hsorted
    -- a key up to that of the first group is not in the later ones
    have hfresh : ∀ k'', k'' ≤ k' → ∀ old, (k'', old) ∉ groups := fun k'' hle old hold =>
      absurd (hhead _ hold) (not_lt.mpr hle)
    rw [pushGroup]
    split
    · next hlt =>
      have hk : ∀ old, (k, old) ∉ groups := hfresh k hlt.le
      simp [hlt.ne, hk]
    · split
      · next heq =>
        subst heq
        have hk : ∀ old, (k, old) ∉ groups := hfresh k le_rfl
        simp [hk]
      · next hne => simp [hne, ih hrest]

/-! ### All rows -/

variable (key : ρ → κ)

theorem groupBy_append_singleton (rows : List ρ) (row : ρ) :
    groupBy key (rows ++ [row]) = pushGroup (key row) row (groupBy key rows) := by
  rw [groupBy, List.foldl_append]
  rfl

theorem groupBy_sorted (rows : List ρ) : GroupsSorted (groupBy key rows) := by
  induction rows using List.reverseRecOn with
  | nil => exact List.Pairwise.nil
  | append_singleton rows row ih =>
    rw [groupBy_append_singleton]
    exact ih.pushGroup _ _

/-- **A group holds the rows with its key, in their order.** -/
theorem mem_groupBy_iff (rows : List ρ) {group : List ρ} :
    (k, group) ∈ groupBy key rows ↔ group = rows.filter (fun r => key r = k) ∧ group ≠ [] := by
  induction rows using List.reverseRecOn generalizing k group with
  | nil => simp [groupBy]
  | append_singleton rows row ih =>
    rw [groupBy_append_singleton, List.filter_append]
    by_cases hk : k = key row
    · subst hk
      rw [mem_pushGroup_self (groupBy_sorted key rows)]
      simp only [ih, decide_true, List.filter_cons_of_pos, List.filter_nil]
      constructor
      · rintro (⟨old, ⟨rfl, -⟩, rfl⟩ | ⟨hnone, rfl⟩)
        · exact ⟨rfl, List.append_ne_nil_of_right_ne_nil _ (List.cons_ne_nil _ _)⟩
        · have hnil : rows.filter (fun r => decide (key r = key row)) = [] := by
            by_contra hne
            exact hnone _ ⟨rfl, hne⟩
          rw [hnil]
          exact ⟨rfl, List.cons_ne_nil _ _⟩
      · rintro ⟨rfl, -⟩
        by_cases hnil : rows.filter (fun r => decide (key r = key row)) = []
        · right
          constructor
          · rintro old ⟨rfl, hne⟩
            exact hne hnil
          · rw [hnil]
            rfl
        · exact Or.inl ⟨_, ⟨rfl, hnil⟩, rfl⟩
    · rw [mem_pushGroup_of_ne hk, ih, List.filter_cons_of_neg (by simp [Ne.symm hk]),
        List.filter_nil, List.append_nil]

theorem pushGroup_rows_perm (k : κ) (row : ρ) (groups : List (κ × List ρ)) :
    ((pushGroup k row groups).flatMap Prod.snd).Perm (groups.flatMap Prod.snd ++ [row]) := by
  induction groups with
  | nil => exact .refl _
  | cons head groups ih =>
    obtain ⟨k', rows⟩ := head
    rw [pushGroup]
    split_ifs
    · exact (List.perm_append_singleton _ _).symm
    · rw [List.flatMap_cons, List.flatMap_cons, List.append_assoc, List.append_assoc]
      exact (List.perm_append_comm).append_left rows
    · rw [List.flatMap_cons, List.flatMap_cons, List.append_assoc]
      exact ih.append_left rows

/-- **No row is lost or doubled.** -/
theorem groupBy_rows_perm (rows : List ρ) : ((groupBy key rows).flatMap Prod.snd).Perm rows := by
  induction rows using List.reverseRecOn with
  | nil => exact .refl _
  | append_singleton rows row ih =>
    rw [groupBy_append_singleton]
    exact (pushGroup_rows_perm _ _ _).trans (ih.append_right [row])

/-- Every row is in the group of its key. -/
theorem exists_mem_groupBy (h : row ∈ rows) :
    (key row, rows.filter fun r => key r = key row) ∈ groupBy key rows := by
  rw [mem_groupBy_iff]
  exact ⟨rfl, List.ne_nil_of_mem (List.mem_filter.mpr ⟨h, by simp⟩)⟩

/-- The keys of the groups are those of the rows. -/
theorem mem_keys_groupBy_iff : k ∈ (groupBy key rows).map Prod.fst ↔ k ∈ rows.map key := by
  constructor
  · intro h
    obtain ⟨⟨_, group⟩, hmem, rfl⟩ := List.mem_map.mp h
    obtain ⟨rfl, hne⟩ := (mem_groupBy_iff key rows).mp hmem
    obtain ⟨row, hrow⟩ := List.exists_mem_of_ne_nil _ hne
    rw [List.mem_filter, decide_eq_true_eq] at hrow
    exact List.mem_map.mpr ⟨row, hrow.1, hrow.2⟩
  · intro h
    obtain ⟨row, hrow, rfl⟩ := List.mem_map.mp h
    exact List.mem_map.mpr ⟨_, exists_mem_groupBy key hrow, rfl⟩

theorem groupBy_keys_nodup (rows : List ρ) : ((groupBy key rows).map Prod.fst).Nodup := by
  rw [List.Nodup, List.pairwise_map]
  exact (groupBy_sorted key rows).imp fun h => h.ne

/-- Looking a key up finds its group. -/
theorem lookup_groupBy [BEq κ] [LawfulBEq κ] (rows : List ρ) (k : κ) : (groupBy key rows).lookup k =
      if rows.filter (fun r => key r = k) = [] then none
      else some (rows.filter fun r => key r = k) := by
  cases h : (groupBy key rows).lookup k with
  | none =>
    have hk : k ∉ rows.map key := by
      rw [← mem_keys_groupBy_iff, List.mem_map]
      rintro ⟨g, hg, rfl⟩
      exact absurd rfl (bne_iff_ne.mp (List.lookup_eq_none_iff.mp h g hg))
    have hnil : rows.filter (fun r => decide (key r = k)) = [] := by
      rw [List.filter_eq_nil_iff]
      intro r hr hrk
      exact hk (List.mem_map.mpr ⟨r, hr, of_decide_eq_true hrk⟩)
    rw [hnil]
    rfl
  | some group =>
    obtain ⟨before, after, heq, -⟩ := List.lookup_eq_some_iff.mp h
    have hmem : (k, group) ∈ groupBy key rows := by
      rw [heq]
      exact List.mem_append_right _ (List.mem_cons_self ..)
    obtain ⟨hgroup, hne⟩ := (mem_groupBy_iff key rows).mp hmem
    rw [← hgroup, ite_cond_eq_false _ _ (eq_false hne)]

/-- Looking a key up after the groups have been mapped. -/
theorem lookup_map_snd {α β γ : Type*} [BEq α] (f : β → γ) (pairs : List (α × β)) (k : α) :
    (pairs.map fun p => (p.1, f p.2)).lookup k = (pairs.lookup k).map f := by
  induction pairs with
  | nil => rfl
  | cons pair pairs ih =>
    rw [List.map_cons, List.lookup_cons, List.lookup_cons, ih]
    cases k == pair.1 <;> rfl

/-! ### Sets -/

@[simp]
theorem mem_sortedSet {xs : List κ} {x : κ} : x ∈ sortedSet xs ↔ x ∈ xs := by
  rw [sortedSet, mem_keys_groupBy_iff, List.map_id]

theorem sortedSet_sorted (xs : List κ) : (sortedSet xs).Pairwise (· < ·) := by
  rw [sortedSet, List.pairwise_map]
  exact groupBy_sorted id xs

end GraphLoom.Foundation
