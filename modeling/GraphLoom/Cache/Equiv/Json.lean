import GraphLoom.Cache.Json

/-!
# What the JSON cache holds

A key holds the result of its entry, when the entry is JSON and has one.  Reading gives it and keeps
it (`get_spec`); what is stored is held under its key, and no other key holds something else.
-/

namespace GraphLoom.Cache

open Foundation Json

variable {β : Type}

/-- The entries are as they were, but that of one key may be deleted. -/
def SameButDeleted (key : String) (storage storage' : Storage β) : Prop :=
  ∀ other, storage'.lookup other = storage.lookup other ∨
    other = key ∧ storage'.lookup other = none

variable {storage storage' : Storage β} {key other : String}

theorem SameButDeleted.refl (key : String) (storage : Storage β) :
    SameButDeleted key storage storage :=
  fun _ => .inl rfl

section

variable (h : SameButDeleted key storage storage')
include h

theorem SameButDeleted.lookup (hne : other ≠ key) :
    storage'.lookup other = storage.lookup other := by
  rcases h other with hsame | ⟨heq, -⟩
  · exact hsame
  · exact absurd heq hne

theorem SameButDeleted.erase : SameButDeleted key storage (storage'.erase key) := by
  intro other
  by_cases hkey : other = key
  · rw [hkey]
    exact .inr ⟨rfl, Finmap.lookup_erase key storage'⟩
  · rw [Finmap.lookup_erase_ne hkey]
    exact .inl (h.lookup hkey)

theorem JsonCache.delete_spec : SameButDeleted key storage (JsonCache.delete key storage') := by
  unfold JsonCache.delete
  split
  · exact h.erase
  · exact h

end

variable [Text β]

/-- The result that an entry says. -/
def resultOf (bytes : β) : Option Value := (Text.fromSlice bytes).bind (·.get "result")

/-- What a key holds. -/
def held (storage : Storage β) (key : String) : Option Value :=
  (storage.lookup key).bind resultOf

namespace JsonCache

/-- What is held is read, and stays; an entry that is not JSON is deleted. -/
theorem get_spec (key : String) (storage : Storage β) :
    (get key storage).1 = (held storage key).map Text.toVec ∧
      SameButDeleted key storage (get key storage).2 ∧
      (held storage key ≠ none → (get key storage).2 = storage) := by
  unfold get has held
  by_cases hkey : key ∈ storage
  · obtain ⟨bytes, hbytes⟩ := Finmap.mem_iff.mp hkey
    simp only [hkey, hbytes, decide_true, not_true_eq_false, if_false, Option.bind_some, resultOf]
    cases Text.fromSlice bytes with
    | none => exact ⟨rfl, (SameButDeleted.refl key storage).erase, fun h => absurd rfl h⟩
    | some data => exact ⟨rfl, .refl key storage, fun _ => rfl⟩
  · have hnone : storage.lookup key = none := Finmap.lookup_eq_none.mpr hkey
    simp only [hkey, hnone, decide_false, Bool.false_eq_true, not_false_eq_true, if_true,
      Option.bind_none]
    exact ⟨rfl, .refl key storage, fun _ => trivial⟩

/-- A value that is not null is stored, and then held. -/
theorem set_spec (key : String) {value : Value} (h : value ≠ .null) (storage : Storage β) :
    ∃ storage', set key (Text.toVec value) storage = (.ok (), storage') ∧
      held storage' key = some value ∧
      ∀ other, other ≠ key → storage'.lookup other = storage.lookup other := by
  let data : Map := Map.extend (Map.insert "result" value []) []
  refine ⟨storage.insert key (Text.toVec (.object data)), ?_, ?_, ?_⟩
  · unfold set setWithDebug
    rw [Text.fromSlice_toVec]
    cases value with
    | null => exact absurd rfl h
    | _ => rfl
  · rw [held, Finmap.lookup_insert, Option.bind_some, resultOf, Text.fromSlice_toVec,
      Option.bind_some]
    exact Map.get_insert_self "result" value []
  · intro other hne
    exact Finmap.lookup_insert_of_ne _ hne

end JsonCache

end GraphLoom.Cache
