import Mathlib.Data.List.Sort
import GraphLoom.Foundation.Fallible

/-!
# Tables

A table is a list of rows, and a primary key is a function of the row that takes no value twice.
Here are the facts about keyed selection, update, ordering and decoding that a store on top of
tables rests on.
-/

namespace GraphLoom.Foundation.Table

variable {ρ κ α ε : Type*}

/-! ### Keyed rows -/

variable {p : ρ → Bool}

section Keyed

variable {key : ρ → κ} {rows : List ρ} {row : ρ}

/-- Selecting by key finds the row with that key. -/
theorem find?_key_eq_some_iff [DecidableEq κ] (hkeys : (rows.map key).Nodup) {k : κ} :
    rows.find? (fun r => key r = k) = some row ↔ row ∈ rows ∧ key row = k := by
  constructor
  · intro h
    exact ⟨List.mem_of_find?_eq_some h, by simpa using List.find?_some h⟩
  · rintro ⟨hrow, hk⟩
    cases h : rows.find? fun r => key r = k with
    | none => exact absurd hk (by simpa using List.find?_eq_none.mp h row hrow)
    | some row' =>
      have hrow' := List.mem_of_find?_eq_some h
      have hk' : key row' = k := by simpa using List.find?_some h
      rw [List.inj_on_of_nodup_map hkeys hrow' hrow (hk'.trans hk.symm)]

/-- With unique keys, a row of the front is the first one with its key. -/
theorem find?_append_of_nodup [DecidableEq κ] (hkeys : (rows.map key).Nodup)
    (hrow : row ∈ rows) (rest : List ρ) :
    (rows ++ rest).find? (fun r => key r = key row) = some row := by
  have hfind : rows.find? (fun r => key r = key row) = some row :=
    (find?_key_eq_some_iff hkeys).mpr ⟨hrow, rfl⟩
  rw [List.find?_append, hfind, Option.some_or]

/-- The first row with a key that the front does not have is in the rest. -/
theorem find?_append_of_not_mem [DecidableEq κ] {k : κ} (hk : k ∉ rows.map key) (rest : List ρ) :
    (rows ++ rest).find? (fun r => key r = k) = rest.find? (fun r => key r = k) := by
  have hfind : rows.find? (fun r => key r = k) = none := by
    rw [List.find?_eq_none]
    intro r hr hrk
    exact hk (List.mem_map.mpr ⟨r, hr, of_decide_eq_true hrk⟩)
  rw [List.find?_append, hfind, Option.none_or]

/-- A condition that only the key of a row meets selects that row alone. -/
theorem filter_eq_singleton (hkeys : (rows.map key).Nodup) (hrow : row ∈ rows)
    (hp : ∀ r ∈ rows, p r = true ↔ key r = key row) : rows.filter p = [row] := by
  have hnodup : (rows.filter p).Nodup := (hkeys.of_map).filter p
  rw [← List.perm_singleton, List.perm_ext_iff_of_nodup hnodup (List.nodup_singleton row)]
  intro r
  rw [List.mem_filter, List.mem_singleton]
  constructor
  · rintro ⟨hr, hpr⟩
    exact List.inj_on_of_nodup_map hkeys hr hrow ((hp r hr).mp hpr)
  · rintro rfl
    exact ⟨hrow, (hp r hrow).mpr rfl⟩

/-- An update that keeps keys keeps the list of keys. -/
theorem map_key_update {set : ρ → ρ} (hset : ∀ r, key (set r) = key r) :
    (rows.map fun r => if p r then set r else r).map key = rows.map key := by
  rw [List.map_map]
  refine List.map_congr_left fun r _ => ?_
  rw [Function.comp_apply]
  split
  · exact hset r
  · rfl

/-- The rows after one keyed row is updated. -/
theorem mem_update_iff (hkeys : (rows.map key).Nodup) (hrow : row ∈ rows)
    (hp : ∀ r ∈ rows, p r = true ↔ key r = key row) {set : ρ → ρ} {r : ρ} :
    r ∈ (rows.map fun r => if p r then set r else r) ↔
      r = set row ∨ r ∈ rows ∧ key r ≠ key row := by
  rw [List.mem_map]
  constructor
  · rintro ⟨r', hr', rfl⟩
    split
    · next h =>
      rw [List.inj_on_of_nodup_map hkeys hr' hrow ((hp r' hr').mp h)]
      exact Or.inl rfl
    · next h => exact Or.inr ⟨hr', fun hk => h ((hp r' hr').mpr hk)⟩
  · rintro (rfl | ⟨hr, hk⟩)
    · exact ⟨row, hrow, ite_cond_eq_true _ _ (eq_true ((hp row hrow).mpr rfl))⟩
    · exact ⟨r, hr, ite_cond_eq_false _ _ (eq_false fun h => hk ((hp r hr).mp h))⟩

end Keyed

/-! ### Ordered selections -/

/-- Sorting forgets the order of the rows when the order tells any two of them apart. -/
theorem insertionSort_eq_of_perm {r : ρ → ρ → Prop} [DecidableRel r] [Std.Total r] [IsTrans ρ r]
    {rows rows' : List ρ} (hperm : rows.Perm rows')
    (hanti : ∀ a ∈ rows, ∀ b ∈ rows, r a b → r b a → a = b) :
    rows.insertionSort r = rows'.insertionSort r := by
  have hsorted := List.perm_insertionSort r rows
  have hsorted' := List.perm_insertionSort r rows'
  refine List.Perm.eq_of_pairwise (fun a b ha hb => ?_) (List.pairwise_insertionSort r rows)
    (List.pairwise_insertionSort r rows') (hsorted.trans (hperm.trans hsorted'.symm))
  exact hanti a (hsorted.mem_iff.mp ha) b (hperm.mem_iff.mpr (hsorted'.mem_iff.mp hb))

/-! ### Decoded rows -/

/-- The rows decode, one by one, to the values. -/
def Decodes (decode : ρ → Except ε α) (rows : List ρ) (values : List α) : Prop :=
  List.Forall₂ (fun row value => decode row = .ok value) rows values

variable {decode : ρ → Except ε α} {rows : List ρ} {values : List α}

theorem Decodes.mapM (h : Decodes decode rows values) : rows.mapM decode = .ok values :=
  mapM_eq_ok_iff.mpr h

theorem decodes_map {encode : α → ρ} (h : ∀ value ∈ values, decode (encode value) = .ok value) :
    Decodes decode (values.map encode) values := by
  induction values with
  | nil => exact .nil
  | cons value values ih =>
    exact .cons (h value (List.mem_cons_self ..)) (ih fun v hv => h v (List.mem_cons_of_mem _ hv))

variable (h : Decodes decode rows values)
include h

theorem Decodes.append {rows' : List ρ} {values' : List α}
    (h' : Decodes decode rows' values') : Decodes decode (rows ++ rows') (values ++ values') :=
  List.rel_append h h'

theorem Decodes.take (n : ℕ) : Decodes decode (rows.take n) (values.take n) :=
  List.forall₂_take n h

/-- Conditions that agree on a row and its value select corresponding rows and values. -/
theorem Decodes.filter {q : α → Bool}
    (hpq : ∀ row value, decode row = .ok value → p row = q value) :
    Decodes decode (rows.filter p) (values.filter q) := by
  refine List.rel_filter ?_ h
  intro row value hrow
  simp only [hpq row value hrow]

/-- A field that decoding keeps is the same list on both sides. -/
theorem Decodes.map_eq {β : Type*} {f : ρ → β} {g : α → β}
    (hfg : ∀ row value, decode row = .ok value → f row = g value) :
    rows.map f = values.map g := by
  induction h with
  | nil => rfl
  | cons hrow _ ih => rw [List.map_cons, List.map_cons, hfg _ _ hrow, ih]

end GraphLoom.Foundation.Table
