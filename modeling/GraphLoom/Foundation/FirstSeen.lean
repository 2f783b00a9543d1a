import Mathlib.Data.List.AList
import Mathlib.Data.List.Induction
import Mathlib.Data.List.Perm.Basic

/-!
# Groups in first-seen order

A map from keys to positions and a list of groups: the first row with a key opens a group at the
end of the list, a later one is pushed on the group at the position of its key.  The groups then
belong to the distinct keys of the rows in the order in which they were first seen, and each one is
the fold of the rows with its key in their order (`mergeFirstSeen_groups`).
-/

namespace GraphLoom.Foundation

variable {ρ κ γ : Type*} [DecidableEq κ]

/-- The positions of the keys, and the groups. -/
abbrev FirstSeen (κ γ : Type*) := AList (fun _ : κ => ℕ) × List γ

/-- One row: `new` opens a group with it, `push` adds it to the group that is there. -/
def FirstSeen.add (key : ρ → κ) (new : ρ → γ) (push : γ → ρ → γ) (state : FirstSeen κ γ) (row : ρ) :
    FirstSeen κ γ :=
  match state.1.lookup (key row) with
  | some index => (state.1, state.2.modify index fun group => push group row)
  | none => (state.1.insert (key row) state.2.length, state.2 ++ [new row])

/-- The groups of the rows. -/
def mergeFirstSeen (key : ρ → κ) (new : ρ → γ) (push : γ → ρ → γ) (rows : List ρ) : List γ :=
  (rows.foldl (FirstSeen.add key new push) (∅, [])).2

/-- The rows with a key. -/
def rowsOfKey (key : ρ → κ) (rows : List ρ) (k : κ) : List ρ :=
  rows.filter fun row => key row = k

/-- The group that a list of rows with one key folds to. -/
def foldGroup (new : ρ → γ) (push : γ → ρ → γ) : List ρ → Option γ
  | [] => none
  | row :: rows => some (rows.foldl push (new row))

/-! ### The rows of a key -/

theorem rowsOfKey_append_singleton_of_ne (key : ρ → κ) (rows : List ρ) {row : ρ} {k : κ}
    (h : key row ≠ k) : rowsOfKey key (rows ++ [row]) k = rowsOfKey key rows k := by
  rw [rowsOfKey, List.filter_append, List.filter_singleton]
  simp [h, rowsOfKey]

theorem rowsOfKey_append_singleton_self (key : ρ → κ) (rows : List ρ) (row : ρ) :
    rowsOfKey key (rows ++ [row]) (key row) = rowsOfKey key rows (key row) ++ [row] := by
  rw [rowsOfKey, List.filter_append, List.filter_singleton]
  simp [rowsOfKey]

theorem rowsOfKey_eq_nil_iff {key : ρ → κ} {rows : List ρ} {k : κ} :
    rowsOfKey key rows k = [] ↔ k ∉ rows.map key := by
  simp only [rowsOfKey, List.filter_eq_nil_iff, decide_eq_true_eq, List.mem_map, not_exists,
    not_and]

/-! ### Distinct keys -/

section Distinct

variable {α : Type*} [BEq α] [LawfulBEq α]

theorem nodup_eraseDups (xs : List α) : xs.eraseDups.Nodup := by
  induction h : xs.length using Nat.strong_induction_on generalizing xs with
  | _ n ih =>
    cases xs with
    | nil => exact List.nodup_nil
    | cons x xs =>
      rw [List.eraseDups_cons, List.nodup_cons]
      have hlt : (xs.filter fun b => !b == x).length < n := by
        rw [← h, List.length_cons]
        exact Nat.lt_succ_of_le (List.length_filter_le _ _)
      refine ⟨fun hmem => ?_, ih _ hlt _ rfl⟩
      simpa using List.mem_eraseDups.mp hmem

theorem eraseDups_append_of_mem {xs : List α} {x : α} (h : x ∈ xs) :
    (xs ++ [x]).eraseDups = xs.eraseDups := by
  have hremove : [x].removeAll xs = [] := by simp [List.removeAll, h]
  rw [List.eraseDups_append, hremove, List.eraseDups_nil, List.append_nil]

theorem eraseDups_append_of_notMem {xs : List α} {x : α} (h : x ∉ xs) :
    (xs ++ [x]).eraseDups = xs.eraseDups ++ [x] := by
  have hremove : [x].removeAll xs = [x] := by simp [List.removeAll, h]
  rw [List.eraseDups_append, hremove, List.eraseDups_cons]
  rfl

/-- The first occurrences of the elements that are kept are the first occurrences that are kept. -/
theorem eraseDups_filter (p : α → Bool) (xs : List α) :
    (xs.filter p).eraseDups = xs.eraseDups.filter p := by
  induction xs using List.reverseRecOn with
  | nil => rfl
  | append_singleton xs x ih =>
    rw [List.filter_append]
    by_cases hp : p x = true
    · have hx : [x].filter p = [x] := by simp [hp]
      rw [hx]
      by_cases hmem : x ∈ xs
      · rw [eraseDups_append_of_mem hmem,
          eraseDups_append_of_mem (List.mem_filter.mpr ⟨hmem, hp⟩), ih]
      · have hmem' : x ∉ xs.filter p := fun h => hmem (List.mem_filter.mp h).1
        rw [eraseDups_append_of_notMem hmem, eraseDups_append_of_notMem hmem', ih,
          List.filter_append, hx]
    · have hx : [x].filter p = [] := by simp [hp]
      rw [hx, List.append_nil, ih]
      by_cases hmem : x ∈ xs
      · rw [eraseDups_append_of_mem hmem]
      · rw [eraseDups_append_of_notMem hmem, List.filter_append, hx, List.append_nil]

end Distinct

variable [BEq κ] [LawfulBEq κ]

/-- The groups of the distinct keys together hold every row once. -/
theorem flatMap_rowsOfKey_perm (key : ρ → κ) (rows : List ρ) :
    ((rows.map key).eraseDups.flatMap (rowsOfKey key rows)).Perm rows := by
  induction h : rows.length using Nat.strong_induction_on generalizing rows with
  | _ n ih =>
    cases rows with
    | nil => exact .nil
    | cons row rows =>
      -- the rows with other keys are grouped as if they were alone
      let others := rows.filter fun r => !decide (key r = key row)
      have hothersKeys : (rows.map key).filter (fun k => !k == key row) = others.map key := by
        rw [List.filter_map]
        refine congrArg (List.map key) (List.filter_congr fun r _ => ?_)
        show (!key r == key row) = !decide (key r = key row)
        rw [beq_eq_decide]
      have hlt : others.length < n := by
        rw [← h, List.length_cons]
        exact Nat.lt_succ_of_le (List.length_filter_le _ _)
      have hkeys : ((row :: rows).map key).eraseDups = key row :: (others.map key).eraseDups := by
        rw [List.map_cons, List.eraseDups_cons, hothersKeys]
      have hothers : ∀ k ∈ (others.map key).eraseDups,
          rowsOfKey key (row :: rows) k = rowsOfKey key others k := by
        intro k hk
        obtain ⟨r, hr, rfl⟩ := List.mem_map.mp (List.mem_eraseDups.mp hk)
        have hne : key r ≠ key row := by simpa using (List.mem_filter.mp hr).2
        rw [rowsOfKey, List.filter_cons_of_neg (by simpa using hne.symm), rowsOfKey,
          List.filter_filter]
        refine List.filter_congr fun r' _ => ?_
        by_cases hr' : key r' = key r
        · simp [hr', hne]
        · simp [hr']
      have hflat : (others.map key).eraseDups.flatMap (rowsOfKey key (row :: rows)) =
          (others.map key).eraseDups.flatMap (rowsOfKey key others) := by
        rw [List.flatMap_def, List.flatMap_def, List.map_congr_left hothers]
      have hfirst : rowsOfKey key (row :: rows) (key row) =
          row :: rows.filter fun r => decide (key r = key row) := by
        rw [rowsOfKey, List.filter_cons_of_pos (by simp)]
      rw [hkeys, List.flatMap_cons, hflat, hfirst, List.cons_append]
      refine .cons _ ?_
      exact ((ih _ hlt others rfl).append_left _).trans (List.filter_append_perm _ rows)

/-! ### The groups -/

theorem foldGroup_append_singleton (new : ρ → γ) (push : γ → ρ → γ) {rows : List ρ}
    (h : rows ≠ []) (row : ρ) :
    foldGroup new push (rows ++ [row]) =
      (foldGroup new push rows).map fun group => push group row := by
  cases rows with
  | nil => exact absurd rfl h
  | cons r rows => simp [foldGroup, List.foldl_append]

/-- What the map and the groups hold after some rows. -/
structure FirstSeen.Holds (key : ρ → κ) (new : ρ → γ) (push : γ → ρ → γ) (rows : List ρ)
    (state : FirstSeen κ γ) : Prop where
  /-- The map has the position of every distinct key. -/
  indexes : ∀ k i, state.1.lookup k = some i ↔ (rows.map key).eraseDups[i]? = some k
  /-- The group at the position of a key is the fold of the rows with the key. -/
  groups : ∀ i : ℕ, state.2[i]? =
    (rows.map key).eraseDups[i]?.bind fun k => foldGroup new push (rowsOfKey key rows k)
  length : state.2.length = (rows.map key).eraseDups.length

variable {key : ρ → κ} {new : ρ → γ} {push : γ → ρ → γ} {rows : List ρ} {state : FirstSeen κ γ}

/-- A new row keeps what the map and the groups hold. -/
theorem FirstSeen.Holds.add (h : FirstSeen.Holds key new push rows state) (row : ρ) :
    FirstSeen.Holds key new push (rows ++ [row]) (state.add key new push row) := by
  unfold FirstSeen.add
  split
  · next index hlookup =>
    -- the key has a group, and the row joins it
    have hindex := (h.indexes _ _).mp hlookup
    have hmem : key row ∈ rows.map key :=
      List.mem_eraseDups.mp (List.mem_of_getElem? hindex)
    have hkeys : ((rows ++ [row]).map key).eraseDups = (rows.map key).eraseDups := by
      rw [List.map_append, List.map_singleton, eraseDups_append_of_mem hmem]
    have hnonempty : rowsOfKey key rows (key row) ≠ [] := by
      rw [Ne, rowsOfKey_eq_nil_iff]
      exact not_not_intro hmem
    constructor
    · rw [hkeys]
      exact h.indexes
    · intro i
      rw [hkeys, List.getElem?_modify, h.groups i]
      by_cases hi : index = i
      · subst hi
        rw [hindex, Option.bind_some, Option.bind_some, rowsOfKey_append_singleton_self,
          foldGroup_append_singleton new push hnonempty]
        simp
      · cases hk : (rows.map key).eraseDups[i]? with
        | none => rfl
        | some k =>
          have hne : key row ≠ k := by
            rintro rfl
            have hlt := (List.getElem?_eq_some_iff.mp hindex).1
            exact hi ((List.getElem?_inj hlt (nodup_eraseDups _)).mp (hindex.trans hk.symm))
          rw [Option.bind_some, Option.bind_some, rowsOfKey_append_singleton_of_ne key rows hne]
          simp [hi]
    · rw [List.length_modify, hkeys]
      exact h.length
  · next hlookup =>
    -- the key is new, and the row opens its group
    have hnotMem : key row ∉ rows.map key := by
      intro hmem
      obtain ⟨i, hi⟩ := List.mem_iff_getElem?.mp (List.mem_eraseDups.mpr hmem)
      rw [(h.indexes _ _).mpr hi] at hlookup
      exact absurd hlookup (Option.some_ne_none _)
    have hkeys : ((rows ++ [row]).map key).eraseDups = (rows.map key).eraseDups ++ [key row] := by
      rw [List.map_append, List.map_singleton, eraseDups_append_of_notMem hnotMem]
    have hnil : rowsOfKey key rows (key row) = [] := rowsOfKey_eq_nil_iff.mpr hnotMem
    constructor
    · intro k i
      rw [hkeys, List.getElem?_append, List.getElem?_singleton]
      by_cases hk : k = key row
      · subst hk
        rw [AList.lookup_insert, h.length]
        constructor
        · intro heq
          obtain rfl := Option.some.inj heq
          simp
        · intro heq
          split at heq
          · exact absurd (List.mem_eraseDups.mp (List.mem_of_getElem? heq)) hnotMem
          · split at heq
            · exact congrArg some (by omega)
            · exact absurd heq.symm (Option.some_ne_none _)
      · rw [AList.lookup_insert_ne hk, h.indexes]
        split
        · exact Iff.rfl
        · next hlt =>
          rw [List.getElem?_eq_none (not_lt.mp hlt)]
          split <;> simp [Ne.symm hk]
    · intro i
      rw [hkeys, List.getElem?_append, List.getElem?_append, h.length, h.groups i]
      split
      · cases hk : (rows.map key).eraseDups[i]? with
        | none => rfl
        | some k =>
          have hne : key row ≠ k := by
            rintro rfl
            exact hnotMem (List.mem_eraseDups.mp (List.mem_of_getElem? hk))
          rw [Option.bind_some, Option.bind_some, rowsOfKey_append_singleton_of_ne key rows hne]
      · rw [List.getElem?_singleton, List.getElem?_singleton]
        split
        · rw [Option.bind_some, rowsOfKey_append_singleton_self, hnil]
          rfl
        · rfl
    · rw [List.length_append, hkeys, List.length_append, h.length]
      rfl

theorem FirstSeen.Holds.foldl (key : ρ → κ) (new : ρ → γ) (push : γ → ρ → γ) (rows : List ρ) :
    FirstSeen.Holds key new push rows (rows.foldl (FirstSeen.add key new push) (∅, [])) := by
  induction rows using List.reverseRecOn with
  | nil =>
    constructor
    · intro k i
      simp
    · intro i
      rfl
    · rfl
  | append_singleton rows row ih =>
    rw [List.foldl_append]
    exact ih.add row

/-- **Each distinct key has one group, in first-seen order: the fold of the rows with the key.** -/
theorem mergeFirstSeen_groups (key : ρ → κ) (new : ρ → γ) (push : γ → ρ → γ) (rows : List ρ) :
    List.Forall₂ (fun k group => foldGroup new push (rowsOfKey key rows k) = some group)
      (rows.map key).eraseDups (mergeFirstSeen key new push rows) := by
  have h := FirstSeen.Holds.foldl key new push rows
  rw [List.forall₂_iff_get]
  refine ⟨h.length.symm, fun i hkey hgroup => ?_⟩
  have hi := h.groups i
  rw [List.getElem?_eq_getElem hkey, Option.bind_some] at hi
  rw [List.get_eq_getElem, List.get_eq_getElem, ← hi]
  exact List.getElem?_eq_getElem hgroup

end GraphLoom.Foundation
