import Mathlib.Data.List.AList
import Mathlib.Data.List.Induction
import Mathlib.Data.List.Perm.Basic

/-!
# Rows and their keys

A map is collected from rows in their order, so that of several rows with one key it has the last.

A loop that keeps a row only when its key has not come before leaves the first row of each key, in
the order of the rows.

Items are matched with keys one after another, and each key is used once.  The keys of the items
that are left are the difference of the two lists (`map_unmatched`).
-/

namespace GraphLoom.Foundation

section Indexes

variable {α κ : Type*} [DecidableEq κ] {key : α → κ} {xs : List α} {k : κ} {x : α}

/-- The rows by their keys. -/
def indexBy (key : α → κ) (xs : List α) : AList fun _ : κ => α :=
  xs.foldl (fun index x => index.insert (key x) x) ∅

theorem indexBy_append_singleton (key : α → κ) (xs : List α) (x : α) :
    indexBy key (xs ++ [x]) = (indexBy key xs).insert (key x) x := by
  rw [indexBy, List.foldl_append]
  rfl

/-- What the map has is a row with the key. -/
theorem of_lookup_indexBy (h : (indexBy key xs).lookup k = some x) : x ∈ xs ∧ key x = k := by
  induction xs using List.reverseRecOn with
  | nil =>
    have hnone : (indexBy key ([] : List α)).lookup k = none := AList.lookup_empty k
    rw [hnone] at h
    exact absurd h.symm (Option.some_ne_none _)
  | append_singleton xs y ih =>
    rw [indexBy_append_singleton] at h
    by_cases hk : k = key y
    · subst hk
      rw [AList.lookup_insert] at h
      obtain rfl := Option.some.inj h
      exact ⟨List.mem_append_right _ (List.mem_singleton_self _), rfl⟩
    · rw [AList.lookup_insert_ne hk] at h
      exact ⟨List.mem_append_left _ (ih h).1, (ih h).2⟩

/-- Every row's key has a row. -/
theorem exists_lookup_indexBy (h : x ∈ xs) : ∃ y, (indexBy key xs).lookup (key x) = some y := by
  induction xs using List.reverseRecOn with
  | nil => exact absurd h List.not_mem_nil
  | append_singleton xs y ih =>
    rw [indexBy_append_singleton]
    by_cases hk : key x = key y
    · rw [hk, AList.lookup_insert]
      exact ⟨y, rfl⟩
    · rw [AList.lookup_insert_ne hk]
      rcases List.mem_append.mp h with h | h
      · exact ih h
      · exact absurd (congrArg key (List.mem_singleton.mp h)) hk

/-- With distinct keys, the map has exactly the rows. -/
theorem lookup_indexBy_iff (hkeys : (xs.map key).Nodup) :
    (indexBy key xs).lookup k = some x ↔ x ∈ xs ∧ key x = k := by
  refine ⟨of_lookup_indexBy, ?_⟩
  rintro ⟨hx, rfl⟩
  have hexists : ∃ y, (indexBy key xs).lookup (key x) = some y := exists_lookup_indexBy hx
  obtain ⟨y, hy⟩ := hexists
  obtain ⟨hmem, hkey⟩ := of_lookup_indexBy hy
  rw [hy, List.inj_on_of_nodup_map hkeys hmem hx hkey]

end Indexes

/-! ## The first row of each key -/

section FirstRows

variable {ρ κ : Type*} [DecidableEq κ] {key : ρ → κ}

/-- Keeps a row when its key is new. -/
def addFirst (key : ρ → κ) (kept : List ρ) (row : ρ) : List ρ :=
  if key row ∈ kept.map key then kept else kept ++ [row]

/-- The first row of each key. -/
def firstOfKeys (key : ρ → κ) (rows : List ρ) : List ρ := rows.foldl (addFirst key) []

theorem firstOfKeys_append (rows rows' : List ρ) :
    firstOfKeys key (rows ++ rows') = rows'.foldl (addFirst key) (firstOfKeys key rows) :=
  List.foldl_append

theorem firstOfKeys_concat (rows : List ρ) (row : ρ) :
    firstOfKeys key (rows ++ [row]) = addFirst key (firstOfKeys key rows) row :=
  firstOfKeys_append rows [row]

/-- Every key has its row. -/
theorem mem_keys_firstOfKeys {rows : List ρ} {k : κ} :
    k ∈ (firstOfKeys key rows).map key ↔ k ∈ rows.map key := by
  induction rows using List.reverseRecOn with
  | nil => rfl
  | append_singleton rows row ih =>
    rw [firstOfKeys_concat, addFirst, List.map_append, List.map_singleton, List.mem_append,
      List.mem_singleton]
    split_ifs with hmem
    · rw [ih]
      refine ⟨.inl, ?_⟩
      rintro (h | rfl)
      · exact h
      · exact ih.mp hmem
    · rw [List.map_append, List.map_singleton, List.mem_append, List.mem_singleton, ih]

/-- No key has two rows. -/
theorem nodup_keys_firstOfKeys (key : ρ → κ) (rows : List ρ) :
    ((firstOfKeys key rows).map key).Nodup := by
  induction rows using List.reverseRecOn with
  | nil => exact List.nodup_nil
  | append_singleton rows row ih =>
    rw [firstOfKeys_concat, addFirst]
    split_ifs with hmem
    · exact ih
    · rw [List.map_append, List.map_singleton]
      have hconcat := ih.concat hmem
      rw [List.concat_eq_append] at hconcat
      exact hconcat

theorem firstOfKeys_sublist (key : ρ → κ) (rows : List ρ) : (firstOfKeys key rows).Sublist rows := by
  induction rows using List.reverseRecOn with
  | nil => exact List.Sublist.refl []
  | append_singleton rows row ih =>
    rw [firstOfKeys_concat, addFirst]
    split_ifs
    · exact ih.trans (List.sublist_append_left rows [row])
    · exact ih.append (List.Sublist.refl [row])

end FirstRows

/-! ## Items that are not matched -/

section Unmatched

variable {α κ : Type*} [DecidableEq κ] {key : α → κ}

/-- The items that find no key of their own. -/
def unmatched (key : α → κ) : List κ → List α → List α
  | _, [] => []
  | keys, item :: items =>
    if key item ∈ keys then unmatched key (keys.erase (key item)) items
    else item :: unmatched key keys items

theorem map_unmatched (keys : List κ) (items : List α) :
    (unmatched key keys items).map key = (items.map key).diff keys := by
  induction items generalizing keys with
  | nil => rw [unmatched, List.map_nil, List.nil_diff]
  | cons item items ih =>
    rw [unmatched, List.map_cons, List.cons_diff]
    split_ifs
    · exact ih _
    · rw [List.map_cons, ih]

theorem unmatched_sublist (keys : List κ) (items : List α) :
    (unmatched key keys items).Sublist items := by
  induction items generalizing keys with
  | nil => exact .slnil
  | cons item items ih =>
    rw [unmatched]
    split_ifs
    · exact (ih _).cons _
    · exact (ih _).cons_cons _

theorem unmatched_append (keys : List κ) (items items' : List α) :
    unmatched key keys (items ++ items') =
      unmatched key keys items ++ unmatched key (keys.diff (items.map key)) items' := by
  induction items generalizing keys with
  | nil => rfl
  | cons item items ih =>
    rw [List.cons_append, unmatched, unmatched, List.map_cons, List.diff_cons]
    split_ifs with hmem
    · exact ih _
    · rw [ih, List.erase_of_not_mem hmem, List.cons_append]

end Unmatched

end GraphLoom.Foundation
