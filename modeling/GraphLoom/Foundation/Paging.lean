import GraphLoom.Foundation.Fallible
import Mathlib.Data.List.Sort

/-!
# Paging by a key

A listing is paged when its client asks for at most `limit` rows, then for the rows behind the last
one it was given, and stops at the first page that is short.  `Paged request cursorOf limit c r`
says that a client which starts at the position `c` ends with `r`: all that it was given, or the
error of the request that failed.

If the rows stand in a strict order and the position of a row selects exactly what the order puts
behind it, then paging gives all rows, once and in order, and ends (`paged_iff`).
-/

namespace GraphLoom.Foundation

variable {ρ α κ ε : Type*} {request : Option κ → Except ε (List α)} {cursorOf : α → κ}
  {limit : ℕ} {c : Option κ} {r : Except ε (List α)}

/-- What a client ends with that follows a listing from a position to the first short page. -/
inductive Paged (request : Option κ → Except ε (List α)) (cursorOf : α → κ) (limit : ℕ) :
    Option κ → Except ε (List α) → Prop
  | failed {c : Option κ} {e : ε} : request c = .error e → Paged request cursorOf limit c (.error e)
  | short {c : Option κ} {page : List α} :
      request c = .ok page → page.length < limit → Paged request cursorOf limit c (.ok page)
  | full {c : Option κ} {front : List α} {last : α} {r : Except ε (List α)} :
      request c = .ok (front ++ [last]) → limit ≤ (front ++ [last]).length →
        Paged request cursorOf limit (some (cursorOf last)) r →
        Paged request cursorOf limit c (r.map fun rest => front ++ [last] ++ rest)

/-- Paging through a listing ends with these items and with nothing else. -/
def PagesThrough (request : Option κ → Except ε (List α)) (cursorOf : α → κ) (limit : ℕ)
    (items : Except ε (List α)) : Prop :=
  ∀ r, Paged request cursorOf limit none r ↔ r = items

/-! ### One request -/

theorem paged_of_error {e : ε} (h : request c = .error e) :
    Paged request cursorOf limit c r ↔ r = .error e := by
  constructor
  · intro hpaged
    cases hpaged with
    | failed h' =>
      rw [h] at h'
      rw [Except.error.inj h']
    | short h' =>
      rw [h] at h'
      cases h'
    | full h' =>
      rw [h] at h'
      cases h'
  · rintro rfl
    exact .failed h

theorem paged_of_short {page : List α} (h : request c = .ok page) (hshort : page.length < limit) :
    Paged request cursorOf limit c r ↔ r = .ok page := by
  constructor
  · intro hpaged
    cases hpaged with
    | failed h' =>
      rw [h] at h'
      cases h'
    | short h' =>
      rw [h] at h'
      rw [Except.ok.inj h']
    | full h' hfull =>
      rw [h] at h'
      rw [← Except.ok.inj h'] at hfull
      omega
  · rintro rfl
    exact .short h hshort

theorem paged_of_full {front : List α} {last : α} (h : request c = .ok (front ++ [last]))
    (hfull : limit ≤ (front ++ [last]).length) :
    Paged request cursorOf limit c r ↔
      ∃ r', Paged request cursorOf limit (some (cursorOf last)) r' ∧
        r = r'.map fun rest => front ++ [last] ++ rest := by
  constructor
  · intro hpaged
    cases hpaged with
    | failed h' =>
      rw [h] at h'
      cases h'
    | short h' hshort =>
      rw [h] at h'
      rw [← Except.ok.inj h'] at hshort
      omega
    | full h' _ hrest =>
      rw [h] at h'
      obtain ⟨rfl, hlast⟩ := List.append_inj' (Except.ok.inj h') rfl
      obtain rfl := List.singleton_inj.mp hlast
      exact ⟨_, hrest, rfl⟩
  · rintro ⟨r', hrest, rfl⟩
    exact .full h hfull hrest

/-! ### Rows in order -/

/-- Behind a row of an ordered list stand the rows the order puts behind it. -/
theorem filter_behind {R : ρ → ρ → Prop} [DecidableRel R] [Std.Asymm R] {front back : List ρ}
    {row : ρ} (h : (front ++ row :: back).Pairwise R) :
    ((front ++ row :: back).filter fun other => R row other) = back := by
  rw [List.pairwise_append, List.pairwise_cons] at h
  obtain ⟨-, ⟨hback, -⟩, hfront⟩ := h
  have hbefore : (front.filter fun other => R row other) = [] := by
    rw [List.filter_eq_nil_iff]
    intro other hother
    have hlt : R other row := hfront other hother row (List.mem_cons_self ..)
    simpa using Std.Asymm.asymm other row hlt
  have hself : ¬ R row row := fun hrow => Std.Asymm.asymm row row hrow hrow
  have hafter : (back.filter fun other => R row other) = back :=
    List.filter_eq_self.mpr fun other hother => by simpa using hback other hother
  rw [List.filter_append, hbefore, List.nil_append,
    List.filter_cons_of_neg (by simpa using hself), hafter]

variable {rows : List ρ}

/-- A sorted list is filtered by filtering before the sort. -/
theorem insertionSort_filter {R : ρ → ρ → Prop} [DecidableRel R] [Std.Total R] [IsTrans ρ R]
    (p : ρ → Bool) (hanti : ∀ a ∈ rows, ∀ b ∈ rows, R a b → R b a → a = b) :
    (rows.filter p).insertionSort R = (rows.insertionSort R).filter p := by
  have hperm : ((rows.filter p).insertionSort R).Perm ((rows.insertionSort R).filter p) :=
    (List.perm_insertionSort R _).trans ((List.perm_insertionSort R rows).symm.filter p)
  refine List.Perm.eq_of_pairwise (fun a b ha hb => ?_) (List.pairwise_insertionSort R _)
    ((List.pairwise_insertionSort R rows).filter p) hperm
  rw [List.mem_insertionSort] at ha
  rw [List.mem_filter, List.mem_insertionSort] at hb
  exact hanti a (List.mem_of_mem_filter ha) b hb.1

variable {decode : ρ → Except ε α}

/-- The last row of a decoded page. -/
theorem mapM_concat_eq_ok {front : List ρ} {row : ρ} {page : List α}
    (h : (front ++ [row]).mapM decode = .ok page) :
    ∃ front' last, decode row = .ok last ∧ page = front' ++ [last] := by
  rw [List.mapM_append, bind_eq_ok] at h
  obtain ⟨front', -, h⟩ := h
  obtain ⟨back', hback, h⟩ := bind_eq_ok.mp h
  rw [List.mapM_cons, List.mapM_nil] at hback
  obtain ⟨last, hlast, hback⟩ := bind_eq_ok.mp hback
  obtain rfl : [last] = back' := Except.ok.inj hback
  exact ⟨front', last, hlast, (Except.ok.inj h).symm⟩

/-- Rows that need no decoding are given as they are. -/
theorem mapM_ok (rows : List α) : rows.mapM (Except.ok : α → Except ε α) = .ok rows :=
  mapM_eq_ok_iff.mpr (List.forall₂_same.mpr fun _ _ => rfl)

/-- Decoded rows are ordered as the rows are. -/
theorem pairwise_of_decodes {R : ρ → ρ → Prop} {S : α → α → Prop}
    {items : List α} (h : List.Forall₂ (fun row a => decode row = .ok a) rows items)
    (hrows : rows.Pairwise R)
    (hRS : ∀ row a row' a', decode row = .ok a → decode row' = .ok a' → R row row' → S a a') :
    items.Pairwise S := by
  induction h with
  | nil => exact .nil
  | @cons row a rows items hrow hrest ih =>
    obtain ⟨hbehind, hrows⟩ := List.pairwise_cons.mp hrows
    refine List.pairwise_cons.mpr ⟨fun a' ha' => ?_, ih hrows⟩
    obtain ⟨row', hrow', hdecode⟩ := forall₂_exists_left hrest ha'
    exact hRS _ _ _ _ hrow hdecode (hbehind row' hrow')

/-! ### All pages -/

/-- **Paging is complete.**  The rows stand in a strict order, a request gives the first rows it
selects, decoded, and the position of a row selects the rows behind it.  Then a client ends with all
rows decoded, or with the error of the first row that does not decode. -/
theorem paged_iff {R : ρ → ρ → Prop} [DecidableRel R] [Std.Asymm R]
    (hlimit : 1 ≤ limit) (hrows : rows.Pairwise R)
    (hstart : request none = (rows.take limit).mapM decode)
    (hnext : ∀ row ∈ rows, ∀ a, decode row = .ok a →
      request (some (cursorOf a)) =
        ((rows.filter fun other => R row other).take limit).mapM decode) :
    PagesThrough request cursorOf limit (rows.mapM decode) := by
  suffices h : ∀ (count : ℕ) (front back : List ρ) (c : Option κ), back.length = count →
      rows = front ++ back → request c = (back.take limit).mapM decode →
      ∀ r, Paged request cursorOf limit c r ↔ r = back.mapM decode from
    h rows.length [] rows none rfl rfl hstart
  -- the induction is on the number of rows that are still to come
  intro count
  induction count using Nat.strong_induction_on with
  | _ count ih =>
  intro front back c hcount hsplit hrequest r
  have hwhole : back.mapM decode = (back.take limit).mapM decode >>= fun page =>
      (back.drop limit).mapM decode >>= fun rest => pure (page ++ rest) := by
    rw [← List.mapM_append, List.take_append_drop]
  cases hpage : (back.take limit).mapM decode with
  | error e =>
    rw [paged_of_error (hrequest.trans hpage), hwhole, hpage]
    rfl
  | ok page =>
    have hdecoded := mapM_eq_ok_iff.mp hpage
    have hlength := hdecoded.length_eq
    rw [List.length_take] at hlength
    by_cases hshort : page.length < limit
    · have hall : back.take limit = back := List.take_of_length_le (by omega)
      rw [paged_of_short (hrequest.trans hpage) hshort, ← hpage, hall]
    · -- the page is full, so the next request starts behind its last row
      have hne : back.take limit ≠ [] := by
        intro hnil
        rw [List.take_eq_nil_iff] at hnil
        rcases hnil with hzero | rfl
        · omega
        · rw [List.length_nil] at hlength
          omega
      obtain ⟨before, row, hshown⟩ : ∃ before row, back.take limit = before ++ [row] :=
        ⟨_, _, (List.dropLast_append_getLast hne).symm⟩
      rw [hshown] at hpage
      obtain ⟨front', last, hlast, rfl⟩ := mapM_concat_eq_ok hpage
      obtain ⟨rest, hrest⟩ : ∃ rest, back.drop limit = rest := ⟨_, rfl⟩
      have hback : back = before ++ row :: rest := by
        rw [List.append_cons, ← hshown, ← hrest, List.take_append_drop]
      have hsplit' : rows = front ++ before ++ row :: rest := by
        rw [hsplit, hback, List.append_assoc]
      have hbehind : (rows.filter fun other => R row other) = rest := by
        rw [hsplit'] at hrows ⊢
        exact filter_behind hrows
      have hrow : row ∈ rows := by
        rw [hsplit']
        simp
      have hnextRequest := hnext row hrow last hlast
      rw [hbehind] at hnextRequest
      have hfewer : rest.length < count := by
        rw [← hrest, List.length_drop]
        omega
      have hrec := ih rest.length hfewer (front ++ before ++ [row]) rest _ rfl
        (by rw [hsplit', List.append_cons]) hnextRequest
      rw [← hshown] at hpage
      rw [paged_of_full (hrequest.trans hpage) (not_lt.mp hshort), hwhole, hpage, hrest]
      simp only [hrec, exists_eq_left]
      cases rest.mapM decode with
      | error e => rfl
      | ok items => rfl

/-! ### Rows sorted by a key -/

section Sorted

variable {τ : Type*} [LinearOrder τ] {key : ρ → τ} {R : ρ → ρ → Prop} [DecidableRel R]

/-- Rows with different keys, sorted by key, have strictly increasing keys. -/
theorem insertionSort_pairwise_lt (hR : ∀ a b, R a b ↔ key a ≤ key b)
    (hkeys : (rows.map key).Nodup) :
    (rows.insertionSort R).Pairwise fun a b => key a < key b := by
  have : Std.Total R := ⟨fun a b => by rw [hR, hR]; exact le_total ..⟩
  have : IsTrans ρ R := ⟨fun a b c => by rw [hR, hR, hR]; exact le_trans⟩
  have hsorted := List.pairwise_insertionSort R rows
  have hne : (rows.insertionSort R).Pairwise fun a b => key a ≠ key b :=
    List.pairwise_map.mp (((List.perm_insertionSort R rows).map key).nodup_iff.mpr hkeys)
  exact hsorted.imp₂ (fun a b hab hne => ((hR a b).mp hab).lt_of_ne hne) hne

/-- **Paging by a key.**  The rows have different keys, a request sorts what it selects by key and
gives the first rows, decoded, and the position of a row selects the larger keys. -/
theorem pagesThrough_sorted (hR : ∀ a b, R a b ↔ key a ≤ key b)
    (hkeys : (rows.map key).Nodup) (hlimit : 1 ≤ limit)
    (hstart : request none = ((rows.insertionSort R).take limit).mapM decode)
    (hnext : ∀ row ∈ rows, ∀ a, decode row = .ok a → request (some (cursorOf a)) =
      (((rows.filter fun other => key row < key other).insertionSort R).take limit).mapM decode) :
    PagesThrough request cursorOf limit ((rows.insertionSort R).mapM decode) := by
  have : Std.Total R := ⟨fun a b => by rw [hR, hR]; exact le_total ..⟩
  have : IsTrans ρ R := ⟨fun a b c => by rw [hR, hR, hR]; exact le_trans⟩
  have : Std.Asymm fun a b : ρ => key a < key b := ⟨fun a b => lt_asymm⟩
  refine paged_iff hlimit (insertionSort_pairwise_lt hR hkeys) hstart fun row hrow a ha => ?_
  rw [List.mem_insertionSort] at hrow
  rw [hnext row hrow a ha, insertionSort_filter]
  intro x hx y hy hxy hyx
  rw [hR] at hxy hyx
  exact List.inj_on_of_nodup_map hkeys hx hy (hxy.antisymm hyx)

end Sorted

end GraphLoom.Foundation
