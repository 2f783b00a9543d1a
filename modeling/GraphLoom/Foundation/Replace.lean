import Mathlib.Data.List.Basic
import Mathlib.Data.List.Count

/-!
# Replacing a pattern

`replace pattern new text` puts `new` in the place of the occurrences of `pattern` in `text`, which
are looked for from the left and do not overlap.  A text that is put in is not looked at again.
-/

namespace GraphLoom.Foundation

variable {α : Type*} [DecidableEq α]

/-- The rest of a replacement, when the next `skip` elements still belong to an occurrence. -/
def replaceFrom (pattern new : List α) : ℕ → List α → List α
  | _, [] => []
  | skip + 1, _ :: text => replaceFrom pattern new skip text
  | 0, c :: text =>
    if pattern <+: c :: text then new ++ replaceFrom pattern new (pattern.length - 1) text
    else c :: replaceFrom pattern new 0 text

/-- `str::replace` of a pattern that is not empty. -/
def replace (pattern new text : List α) : List α := replaceFrom pattern new 0 text

theorem replaceFrom_eq_drop (pattern new : List α) (skip : ℕ) (text : List α) :
    replaceFrom pattern new skip text = replace pattern new (text.drop skip) := by
  induction skip generalizing text with
  | zero => rfl
  | succ skip ih =>
    cases text with
    | nil => rfl
    | cons c text => exact ih text

@[simp]
theorem replace_nil (pattern new : List α) : replace pattern new [] = [] := rfl

/-- An occurrence at the front is replaced as a whole. -/
theorem replace_append_self {pattern : List α} (h : pattern ≠ []) (new text : List α) :
    replace pattern new (pattern ++ text) = new ++ replace pattern new text := by
  obtain ⟨c, pattern, rfl⟩ := List.exists_cons_of_ne_nil h
  have hprefix : c :: pattern <+: c :: (pattern ++ text) := List.prefix_append (c :: pattern) text
  show replaceFrom _ _ _ (c :: (pattern ++ text)) = _
  rw [replaceFrom, if_pos hprefix, replaceFrom_eq_drop, List.length_cons,
    Nat.add_sub_cancel, List.drop_left]

variable {c : α}

/-- Where no occurrence starts, the element is kept. -/
theorem replace_cons_kept {pattern text : List α} (h : ¬ pattern <+: c :: text)
    (new : List α) : replace pattern new (c :: text) = c :: replace pattern new text := by
  show replaceFrom _ _ _ _ = _
  rw [replaceFrom, if_neg h]
  rfl

/-- A pattern of one element is replaced in every place. -/
theorem replace_singleton (a : α) (new text : List α) :
    replace [a] new text = text.flatMap fun c => if c = a then new else [c] := by
  induction text with
  | nil => rfl
  | cons c text ih =>
    rw [List.flatMap_cons, ← ih]
    by_cases h : c = a
    · rw [h, if_pos rfl]
      exact replace_append_self (List.cons_ne_nil a []) new text
    · rw [if_neg h]
      refine replace_cons_kept (fun hprefix => h ?_) new
      exact (List.cons_prefix_cons.mp hprefix).1.symm

/-! ### Patterns of two elements -/

@[simp]
theorem replace_pair_self (a b : α) (new text : List α) :
    replace [a, b] new (a :: b :: text) = new ++ replace [a, b] new text :=
  replace_append_self (List.cons_ne_nil a [b]) new text

variable {text : List α}

theorem replace_pair_cons {a b c : α} (h : c = a → text.head? ≠ some b)
    (new : List α) : replace [a, b] new (c :: text) = c :: replace [a, b] new text := by
  refine replace_cons_kept (fun hprefix => ?_) new
  rw [List.cons_prefix_cons] at hprefix
  obtain ⟨rfl, hprefix⟩ := hprefix
  cases text with
  | nil => simp at hprefix
  | cons d text =>
    rw [List.cons_prefix_cons] at hprefix
    exact h rfl (congrArg some hprefix.1.symm)

theorem replace_pair_cons_of_ne {a c : α} (h : c ≠ a) (b : α) (new text : List α) :
    replace [a, b] new (c :: text) = c :: replace [a, b] new text :=
  replace_pair_cons (fun hc => absurd hc h) new

theorem replace_pair_cons_of_head_ne {a b : α} (h : text.head? ≠ some b) (c : α)
    (new : List α) : replace [a, b] new (c :: text) = c :: replace [a, b] new text :=
  replace_pair_cons (fun _ => h) new

theorem replace_pair_cons_cons {a b c d : α} (h : ¬ (c = a ∧ d = b)) (new text : List α) :
    replace [a, b] new (c :: d :: text) = c :: replace [a, b] new (d :: text) := by
  refine replace_pair_cons (fun hc hd => h ⟨hc, ?_⟩) new
  exact Option.some.inj hd

/-- What a replaced text begins with: an occurrence at the front gives the beginning of `new`. -/
theorem head?_replace_pair (a b : α) {new : List α} (hnew : new ≠ []) (text : List α) :
    (replace [a, b] new text).head? = text.head? ∨ (replace [a, b] new text).head? = new.head? := by
  cases text with
  | nil => exact Or.inl rfl
  | cons c text =>
    by_cases h : [a, b] <+: c :: text
    · obtain ⟨rest, hrest⟩ := h
      rw [← hrest, replace_append_self (List.cons_ne_nil a [b])]
      exact Or.inr (List.head?_append_of_ne_nil new hnew)
    · rw [replace_cons_kept h]
      exact Or.inl rfl

/-! ### Counting the replacements -/

/-- The number of occurrences, when the next `skip` elements still belong to one. -/
def occurrencesFrom (pattern : List α) : ℕ → List α → ℕ
  | _, [] => 0
  | skip + 1, _ :: text => occurrencesFrom pattern skip text
  | 0, c :: text =>
    if pattern <+: c :: text then occurrencesFrom pattern (pattern.length - 1) text + 1
    else occurrencesFrom pattern 0 text

/-- How many occurrences `replace` replaces. -/
def occurrences (pattern text : List α) : ℕ := occurrencesFrom pattern 0 text

theorem occurrencesFrom_eq_drop (pattern : List α) (skip : ℕ) (text : List α) :
    occurrencesFrom pattern skip text = occurrences pattern (text.drop skip) := by
  induction skip generalizing text with
  | zero => rfl
  | succ skip ih =>
    cases text with
    | nil => rfl
    | cons c text => exact ih text

@[simp]
theorem occurrences_nil (pattern : List α) : occurrences pattern [] = 0 := rfl

theorem occurrences_append_self {pattern : List α} (h : pattern ≠ []) (text : List α) :
    occurrences pattern (pattern ++ text) = occurrences pattern text + 1 := by
  obtain ⟨c, pattern, rfl⟩ := List.exists_cons_of_ne_nil h
  have hprefix : c :: pattern <+: c :: (pattern ++ text) := List.prefix_append (c :: pattern) text
  show occurrencesFrom _ _ (c :: (pattern ++ text)) = _
  rw [occurrencesFrom, if_pos hprefix, occurrencesFrom_eq_drop, List.length_cons,
    Nat.add_sub_cancel, List.drop_left]

theorem occurrences_cons_kept {pattern text : List α} (h : ¬ pattern <+: c :: text) :
    occurrences pattern (c :: text) = occurrences pattern text := by
  show occurrencesFrom _ _ _ = _
  rw [occurrencesFrom, if_neg h]
  rfl

/-- Induction that follows a replacement: an occurrence at the front goes as a whole. -/
theorem occurrence_induction {pattern : List α} (h : pattern ≠ []) {motive : List α → Prop}
    (nil : motive []) (occurrence : ∀ text, motive text → motive (pattern ++ text))
    (kept : ∀ c text, ¬ pattern <+: c :: text → motive text → motive (c :: text))
    (text : List α) : motive text := by
  induction hlength : text.length using Nat.strongRecOn generalizing text with
  | ind n ih =>
  rcases text with - | ⟨c, text⟩
  · exact nil
  · rw [List.length_cons] at hlength
    by_cases hprefix : pattern <+: c :: text
    · obtain ⟨rest, hrest⟩ := hprefix
      have hsum := congrArg List.length hrest
      rw [List.length_append, List.length_cons] at hsum
      have hpos := List.length_pos_of_ne_nil h
      rw [← hrest]
      exact occurrence rest (ih rest.length (by omega) rest rfl)
    · exact kept c text hprefix (ih text.length (by omega) text rfl)

omit [DecidableEq α] in
/-- A pattern does not reach beyond an element that it does not have. -/
theorem prefix_of_prefix_append_cons {pattern front rest : List α} (hc : c ∉ pattern)
    (h : pattern <+: front ++ c :: rest) : pattern <+: front := by
  have hfront : front ++ [c] <+: front ++ c :: rest := ⟨rest, by simp⟩
  by_cases hlength : pattern.length ≤ front.length
  · exact List.prefix_of_prefix_length_le h (List.prefix_append front _) hlength
  · have hle : (front ++ [c]).length ≤ pattern.length := by
      rw [List.length_append, List.length_singleton]
      omega
    have := List.prefix_of_prefix_length_le hfront h hle
    exact absurd (this.subset (List.mem_append_right front (List.mem_singleton_self c))) hc

/-- The text begins with no element of the pattern. -/
def Apart (pattern text : List α) : Prop := ∀ c ∈ text.head?, c ∉ pattern

section Apart

variable {pattern : List α} (hne : pattern ≠ []) {rest : List α} (hrest : Apart pattern rest)

omit [DecidableEq α] in
theorem prefix_append_apart (hrest : Apart pattern rest) {front : List α} :
    pattern <+: front ++ rest ↔ pattern <+: front := by
  constructor
  · intro h
    cases rest with
    | nil =>
      rw [List.append_nil] at h
      exact h
    | cons c rest => exact prefix_of_prefix_append_cons (hrest c rfl) h
  · exact fun h => h.trans (List.prefix_append front rest)

include hne hrest

/-- Texts that no occurrence joins are replaced one by one. -/
theorem replace_append_apart (new front : List α) :
    replace pattern new (front ++ rest) = replace pattern new front ++ replace pattern new rest := by
  induction front using occurrence_induction hne with
  | nil => rfl
  | occurrence front ih =>
    rw [List.append_assoc, replace_append_self hne, replace_append_self hne, ih, List.append_assoc]
  | kept c front h ih =>
    have happend : ¬ pattern <+: c :: (front ++ rest) := fun hprefix =>
      h ((prefix_append_apart hrest).mp hprefix)
    rw [List.cons_append, replace_cons_kept happend, replace_cons_kept h, ih, List.cons_append]

theorem occurrences_append_apart (front : List α) :
    occurrences pattern (front ++ rest) = occurrences pattern front + occurrences pattern rest := by
  induction front using occurrence_induction hne with
  | nil => rw [List.nil_append, occurrences_nil, Nat.zero_add]
  | occurrence front ih =>
    rw [List.append_assoc, occurrences_append_self hne, occurrences_append_self hne, ih]
    omega
  | kept c front h ih =>
    have happend : ¬ pattern <+: c :: (front ++ rest) := fun hprefix =>
      h ((prefix_append_apart hrest).mp hprefix)
    rw [List.cons_append, occurrences_cons_kept happend, occurrences_cons_kept h, ih]

end Apart

/-- Nothing is replaced in a text without an occurrence. -/
theorem occurrences_eq_zero_iff {pattern : List α} (hne : pattern ≠ []) :
    occurrences pattern text = 0 ↔ ¬ pattern <:+: text := by
  induction text using occurrence_induction hne with
  | nil => simp [hne]
  | occurrence text ih =>
    rw [occurrences_append_self hne]
    exact iff_of_false (Nat.succ_ne_zero _) fun h => h (List.prefix_append pattern text).isInfix
  | kept c text h ih => rw [occurrences_cons_kept h, ih, List.infix_cons_iff, not_or, and_iff_right h]

theorem replace_eq_self {pattern : List α} (hne : pattern ≠ []) (new : List α)
    (h : ¬ pattern <:+: text) : replace pattern new text = text := by
  induction text using occurrence_induction hne with
  | nil => rfl
  | occurrence text ih => exact absurd (List.prefix_append pattern text).isInfix h
  | kept c text hkept ih =>
    rw [replace_cons_kept hkept, ih fun hinfix => h (List.infix_cons_iff.mpr (Or.inr hinfix))]

/-- Each occurrence takes with it what it has of an element beyond the text that is put in. -/
theorem count_replace {pattern new : List α} (hne : pattern ≠ [])
    (hle : new.count c ≤ pattern.count c) (text : List α) :
    (replace pattern new text).count c +
      occurrences pattern text * (pattern.count c - new.count c) = text.count c := by
  induction text using occurrence_induction hne with
  | nil => simp
  | occurrence text ih =>
    rw [replace_append_self hne, occurrences_append_self hne, List.count_append, List.count_append,
      Nat.add_one_mul]
    omega
  | kept d text hkept ih =>
    rw [replace_cons_kept hkept, occurrences_cons_kept hkept, List.count_cons, List.count_cons]
    omega

end GraphLoom.Foundation
