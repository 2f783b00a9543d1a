import Mathlib.Data.List.Induction
import Mathlib.Data.List.Nodup

/-!
# Maps in insertion order

A map that keeps its entries in the order in which their keys came first; a key that comes again
has its value replaced in its place.  A loop over rows that updates the entry of each row's key
leaves under a key what the rows with that key make of it (`get_updateAll`).
-/

namespace GraphLoom.Foundation

variable {κ ν ρ : Type*} [DecidableEq κ]

/-- The entries, in the order in which their keys came first. -/
abbrev InsertionMap (κ ν : Type*) := List (κ × ν)

namespace InsertionMap

def get (entries : InsertionMap κ ν) (key : κ) : Option ν := entries.lookup key

/-- A new key goes to the end. -/
def set (key : κ) (value : ν) : InsertionMap κ ν → InsertionMap κ ν
  | [] => [(key, value)]
  | (other, old) :: rest =>
    if other = key then (key, value) :: rest else (other, old) :: set key value rest

/-- Pushes a value on the list under a key. -/
def append (entries : InsertionMap κ (List ν)) (key : κ) (value : ν) : InsertionMap κ (List ν) :=
  set key ((entries.get key).getD [] ++ [value]) entries

def values (entries : InsertionMap κ ν) : List ν := entries.map Prod.snd

/-- A loop that updates the entry of each row's key. -/
def updateAll (key : ρ → κ) (update : Option ν → ρ → ν) (rows : List ρ)
    (entries : InsertionMap κ ν) : InsertionMap κ ν :=
  rows.foldl (fun entries row => set (key row) (update (entries.get (key row)) row) entries) entries

/-! ### One update -/

@[simp]
theorem get_cons_self (key : κ) (value : ν) (rest : InsertionMap κ ν) :
    get ((key, value) :: rest) key = some value := by
  simp [get]

theorem get_cons_of_ne {key other : κ} (h : key ≠ other) (value : ν) (rest : InsertionMap κ ν) :
    get ((other, value) :: rest) key = rest.get key := by
  rw [get, List.lookup_cons, beq_false_of_ne h, get]

theorem get_set (key k : κ) (value : ν) (entries : InsertionMap κ ν) :
    (set key value entries).get k = if k = key then some value else entries.get k := by
  induction entries with
  | nil =>
    by_cases hk : k = key
    · subst hk
      simp [set]
    · rw [set, get_cons_of_ne hk, if_neg hk]
  | cons entry rest ih =>
    obtain ⟨other, old⟩ := entry
    unfold set
    by_cases hother : other = key
    · subst hother
      rw [if_pos rfl]
      by_cases hk : k = other
      · subst hk
        simp
      · rw [get_cons_of_ne hk, get_cons_of_ne hk, if_neg hk]
    · rw [if_neg hother]
      by_cases hk : k = other
      · subst hk
        rw [get_cons_self, get_cons_self, if_neg hother]
      · rw [get_cons_of_ne hk, get_cons_of_ne hk, ih]

variable {entries : InsertionMap κ ν}

theorem mem_keys_set {key k : κ} {value : ν} :
    k ∈ (set key value entries).map Prod.fst ↔ k = key ∨ k ∈ entries.map Prod.fst := by
  induction entries with
  | nil => simp [set]
  | cons entry rest ih =>
    obtain ⟨other, old⟩ := entry
    unfold set
    split
    · next hother => simp [hother]
    · simp only [List.map_cons, List.mem_cons, ih, or_left_comm]

theorem of_mem_set {key : κ} {value : ν} {entry : κ × ν}
    (h : entry ∈ set key value entries) : entry = (key, value) ∨ entry ∈ entries := by
  induction entries with
  | nil => exact .inl (List.mem_singleton.mp h)
  | cons first rest ih =>
    obtain ⟨other, old⟩ := first
    unfold set at h
    split at h
    · obtain h | h := List.mem_cons.mp h
      · exact .inl h
      · exact .inr (List.mem_cons_of_mem _ h)
    · obtain h | h := List.mem_cons.mp h
      · exact .inr (List.mem_cons.mpr (.inl h))
      · exact (ih h).imp_right (List.mem_cons_of_mem _)

theorem nodup_set {key : κ} {value : ν}
    (h : (entries.map Prod.fst).Nodup) : ((set key value entries).map Prod.fst).Nodup := by
  induction entries with
  | nil => simp [set]
  | cons entry rest ih =>
    obtain ⟨other, old⟩ := entry
    rw [List.map_cons, List.nodup_cons] at h
    unfold set
    split
    · next hother =>
      rw [List.map_cons, List.nodup_cons, ← hother]
      exact h
    · next hother =>
      rw [List.map_cons, List.nodup_cons, mem_keys_set, not_or]
      exact ⟨⟨hother, h.1⟩, ih h.2⟩

theorem mem_iff_get {key : κ} {value : ν}
    (h : (entries.map Prod.fst).Nodup) : (key, value) ∈ entries ↔ entries.get key = some value := by
  induction entries with
  | nil => simp [get]
  | cons entry rest ih =>
    obtain ⟨other, old⟩ := entry
    rw [List.map_cons, List.nodup_cons] at h
    rw [List.mem_cons, ih h.2]
    by_cases hk : key = other
    · subst hk
      have hrest : get rest key ≠ some value := by
        rw [ne_eq, ← ih h.2]
        intro hmem
        exact h.1 (List.mem_map.mpr ⟨(key, value), hmem, rfl⟩)
      simp [hrest, eq_comm]
    · simp [get_cons_of_ne hk, hk]

/-! ### A loop of updates -/

section Loop

variable {key : ρ → κ} {update : Option ν → ρ → ν}

theorem updateAll_append_singleton (rows : List ρ) (row : ρ) (entries : InsertionMap κ ν) :
    updateAll key update (rows ++ [row]) entries =
      set (key row) (update ((updateAll key update rows entries).get (key row)) row)
        (updateAll key update rows entries) := by
  rw [updateAll, List.foldl_append]
  rfl

theorem nodup_updateAll (rows : List ρ) (h : (entries.map Prod.fst).Nodup) :
    ((updateAll key update rows entries).map Prod.fst).Nodup := by
  induction rows using List.reverseRecOn with
  | nil => exact h
  | append_singleton rows row ih =>
    rw [updateAll_append_singleton]
    exact nodup_set ih

/-- What is under a key is what the rows with that key make of it. -/
theorem get_updateAll (rows : List ρ) (entries : InsertionMap κ ν) (k : κ) :
    (updateAll key update rows entries).get k =
      (rows.filter fun row => key row = k).foldl (fun old row => some (update old row))
        (entries.get k) := by
  induction rows using List.reverseRecOn with
  | nil => rfl
  | append_singleton rows row ih =>
    rw [updateAll_append_singleton, get_set, List.filter_append, List.foldl_append]
    by_cases hk : key row = k
    · subst hk
      rw [if_pos rfl, ih, List.filter_singleton]
      simp
    · rw [if_neg (Ne.symm hk), ih, List.filter_singleton]
      simp [hk]

end Loop

/-! ### Rows grouped by a key, and the latest row of a key -/

def grouped (key : ρ → κ) (rows : List ρ) : InsertionMap κ (List ρ) :=
  rows.foldl (fun entries row => append entries (key row) row) []

def latest (key : ρ → κ) (rows : List ρ) : InsertionMap κ ρ :=
  rows.foldl (fun entries row => set (key row) row entries) []

variable {key : ρ → κ} {rows : List ρ} {k : κ}

theorem grouped_eq (key : ρ → κ) (rows : List ρ) :
    grouped key rows = updateAll key (fun old row => old.getD [] ++ [row]) rows [] := rfl

theorem latest_eq (key : ρ → κ) (rows : List ρ) :
    latest key rows = updateAll key (fun _ row => row) rows [] := rfl

theorem grouped_nodup (key : ρ → κ) (rows : List ρ) : ((grouped key rows).map Prod.fst).Nodup := by
  rw [grouped_eq]
  exact nodup_updateAll rows List.nodup_nil

theorem latest_nodup (key : ρ → κ) (rows : List ρ) : ((latest key rows).map Prod.fst).Nodup := by
  rw [latest_eq]
  exact nodup_updateAll rows List.nodup_nil

theorem getD_get_grouped (key : ρ → κ) (rows : List ρ) (k : κ) :
    ((grouped key rows).get k).getD [] = rows.filter fun row => key row = k := by
  have hfold : ∀ (xs : List ρ) (old : Option (List ρ)),
      (xs.foldl (fun old row => some (old.getD [] ++ [row])) old).getD [] = old.getD [] ++ xs := by
    intro xs
    induction xs with
    | nil => simp
    | cons x xs ih => simp [ih]
  rw [grouped_eq, get_updateAll, hfold]
  rfl

/-- An entry holds the rows with its key. -/
theorem of_mem_grouped {group : List ρ} (h : (k, group) ∈ grouped key rows) :
    group = rows.filter fun row => key row = k := by
  rw [mem_iff_get (grouped_nodup key rows)] at h
  rw [← getD_get_grouped, h]
  rfl

/-- An entry holds a row with its key. -/
theorem of_mem_latest {row : ρ} (h : (k, row) ∈ latest key rows) : row ∈ rows ∧ key row = k := by
  have hfold : ∀ (xs : List ρ) (old : Option ρ),
      xs.foldl (fun _ row => some row) old = some row → old = some row ∨ row ∈ xs := by
    intro xs
    induction xs with
    | nil => exact fun _ h => .inl h
    | cons x xs ih =>
      intro old h
      obtain h | h := ih _ h
      · exact .inr (by simp [Option.some_inj.mp h])
      · exact .inr (List.mem_cons_of_mem _ h)
  rw [mem_iff_get (latest_nodup key rows), latest_eq, get_updateAll] at h
  obtain h | h := hfold _ _ h
  · cases h
  · simpa using h

theorem of_mem_values_latest {row : ρ} (h : row ∈ (latest key rows).values) : row ∈ rows := by
  obtain ⟨⟨k, row⟩, hmem, rfl⟩ := List.mem_map.mp h
  exact (of_mem_latest hmem).1

/-- The latest rows have keys of their own. -/
theorem values_latest_pairwise (key : ρ → κ) (rows : List ρ) :
    (latest key rows).values.Pairwise fun a b => key a ≠ key b := by
  rw [values, List.pairwise_map]
  refine List.Pairwise.imp_of_mem ?_ (List.pairwise_map.mp (latest_nodup key rows))
  intro a b ha hb hab
  rw [(of_mem_latest ha).2, (of_mem_latest hb).2]
  exact hab

end InsertionMap

end GraphLoom.Foundation
