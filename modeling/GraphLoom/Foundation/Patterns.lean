import GraphLoom.Foundation.Replace
import Mathlib.Data.List.Forall2
import Mathlib.Data.List.Infix

/-!
# Patterns of characters

A pattern is a list of pieces, each of which takes one character of a class, or as many characters
of a class as leave a match for the pieces behind it.  `replaceMatches` replaces the leftmost
matches, which do not overlap.

A pattern matches where one of its words begins (`isSome_matchPieces_iff`).  A character that is in
no class parts a text into texts of which each is looked at on its own
(`replaceMatches_append_stop`).
-/

namespace GraphLoom.Foundation

inductive Piece where
  | one (p : Char → Bool)
  | many (p : Char → Bool)

/-- As many characters of a class as leave a match for what follows. -/
def matchMany (p : Char → Bool) (next : List Char → Option (List (List Char) × List Char)) :
    List Char → Option (List Char × List (List Char) × List Char)
  | [] => (next []).map fun found => ([], found)
  | c :: text =>
    if p c then
      match matchMany p next text with
      | some (run, found) => some (c :: run, found)
      | none => (next (c :: text)).map fun found => ([], found)
    else (next (c :: text)).map fun found => ([], found)

/-- A match at the front of a text: the texts of the pieces, and what follows. -/
def matchPieces : List Piece → List Char → Option (List (List Char) × List Char)
  | [], text => some ([], text)
  | .one _ :: _, [] => none
  | .one p :: pieces, c :: text =>
    if p c then (matchPieces pieces text).map fun found => ([c] :: found.1, found.2) else none
  | .many p :: pieces, text =>
    (matchMany p (matchPieces pieces) text).map fun found => (found.1 :: found.2.1, found.2.2)

/-- The rest of a replacement, when the next `skip` characters still belong to a match. -/
def replaceMatchesFrom (pieces : List Piece) (new : List (List Char) → List Char) :
    ℕ → List Char → List Char
  | _, [] => []
  | skip + 1, _ :: text => replaceMatchesFrom pieces new skip text
  | 0, c :: text =>
    match matchPieces pieces (c :: text) with
    | some (texts, rest) =>
      new texts ++ replaceMatchesFrom pieces new (text.length - rest.length) text
    | none => c :: replaceMatchesFrom pieces new 0 text

/-- `Regex::replace_all`, for a pattern that takes one character or more. -/
def replaceMatches (pieces : List Piece) (new : List (List Char) → List Char) (text : List Char) :
    List Char :=
  replaceMatchesFrom pieces new 0 text

/-! ### Words -/

def Piece.Fits : Piece → List Char → Prop
  | .one p, text => ∃ c, p c = true ∧ text = [c]
  | .many p, text => ∀ c ∈ text, p c = true

/-- The word is one of the pattern. -/
def FitsWord (pieces : List Piece) (word : List Char) : Prop :=
  ∃ texts, List.Forall₂ Piece.Fits pieces texts ∧ word = texts.flatten

def Occurs (pieces : List Piece) (text : List Char) : Prop :=
  ∃ word, FitsWord pieces word ∧ word <:+: text

variable {p : Char → Bool} {pieces : List Piece} {new : List (List Char) → List Char}
  {text rest run : List Char} {texts : List (List Char)} {c : Char}
  {next : List Char → Option (List (List Char) × List Char)} {word front back : List Char}

theorem matchMany_sound {found : List (List Char) × List Char}
    (h : matchMany p next text = some (run, found)) :
    ∃ tail, text = run ++ tail ∧ (∀ c ∈ run, p c = true) ∧ next tail = some found := by
  induction text generalizing run with
  | nil =>
    obtain ⟨found', hfound, heq⟩ := Option.map_eq_some_iff.mp h
    obtain ⟨rfl, rfl⟩ := Prod.mk.inj heq
    exact ⟨[], rfl, (fun _ hc => nomatch hc), hfound⟩
  | cons c text ih =>
    have hstop (h : (next (c :: text)).map (fun found => (([] : List Char), found)) =
        some (run, found)) :
        ∃ tail, c :: text = run ++ tail ∧ (∀ c ∈ run, p c = true) ∧ next tail = some found := by
      obtain ⟨found', hfound, heq⟩ := Option.map_eq_some_iff.mp h
      obtain ⟨rfl, rfl⟩ := Prod.mk.inj heq
      exact ⟨c :: text, rfl, (fun _ hc => nomatch hc), hfound⟩
    rw [matchMany] at h
    split at h
    · next hc =>
      split at h
      · next run' found' hrun =>
        obtain ⟨rfl, rfl⟩ := Prod.mk.inj (Option.some.inj h)
        obtain ⟨tail, rfl, hall, hnext⟩ := ih hrun
        exact ⟨tail, rfl, List.forall_mem_cons.mpr ⟨hc, hall⟩, hnext⟩
      · exact hstop h
    · exact hstop h

theorem matchMany_complete (hrun : ∀ c ∈ run, p c = true) (h : (next rest).isSome) :
    (matchMany p next (run ++ rest)).isSome := by
  induction run with
  | nil =>
    cases rest with
    | nil => simpa [matchMany] using h
    | cons c rest =>
      rw [List.nil_append, matchMany]
      split
      · split
        · rfl
        · simpa using h
      · simpa using h
  | cons c run ih =>
    rw [List.cons_append, matchMany, if_pos (hrun c (List.mem_cons_self ..))]
    have hrest := ih fun d hd => hrun d (List.mem_cons_of_mem _ hd)
    split
    · rfl
    · next hnone => rw [hnone] at hrest; exact nomatch hrest

theorem matchPieces_sound (h : matchPieces pieces text = some (texts, rest)) :
    List.Forall₂ Piece.Fits pieces texts ∧ text = texts.flatten ++ rest := by
  induction pieces generalizing text texts with
  | nil =>
    obtain ⟨rfl, rfl⟩ := Prod.mk.inj (Option.some.inj h)
    exact ⟨.nil, rfl⟩
  | cons piece pieces ih =>
    cases piece with
    | one p =>
      cases text with
      | nil => exact nomatch h
      | cons c text =>
        rw [matchPieces] at h
        split at h
        · next hc =>
          obtain ⟨found, hfound, heq⟩ := Option.map_eq_some_iff.mp h
          obtain ⟨rfl, rfl⟩ := Prod.mk.inj heq
          obtain ⟨hfits, rfl⟩ := ih hfound
          exact ⟨.cons ⟨c, hc, rfl⟩ hfits, rfl⟩
        · exact nomatch h
    | many p =>
      rw [matchPieces] at h
      obtain ⟨⟨run, found⟩, hmany, heq⟩ := Option.map_eq_some_iff.mp h
      obtain ⟨rfl, rfl⟩ := Prod.mk.inj heq
      obtain ⟨tail, rfl, hrun, hnext⟩ := matchMany_sound hmany
      obtain ⟨hfits, rfl⟩ := ih hnext
      exact ⟨.cons hrun hfits, by rw [List.flatten_cons, List.append_assoc]⟩

theorem matchPieces_complete (h : List.Forall₂ Piece.Fits pieces texts) (rest : List Char) :
    (matchPieces pieces (texts.flatten ++ rest)).isSome := by
  induction h with
  | nil => rfl
  | @cons piece text pieces texts hfits _ ih =>
    rw [List.flatten_cons, List.append_assoc]
    cases piece with
    | one p =>
      obtain ⟨c, hc, rfl⟩ := hfits
      rw [List.singleton_append, matchPieces, if_pos hc]
      simpa using ih
    | many p =>
      rw [matchPieces]
      simpa using matchMany_complete hfits ih

/-- A pattern matches where one of its words begins. -/
theorem isSome_matchPieces_iff :
    (matchPieces pieces text).isSome ↔ ∃ word, FitsWord pieces word ∧ word <+: text := by
  constructor
  · intro h
    obtain ⟨⟨texts, rest⟩, hfound⟩ := Option.isSome_iff_exists.mp h
    obtain ⟨hfits, rfl⟩ := matchPieces_sound hfound
    exact ⟨_, ⟨texts, hfits, rfl⟩, List.prefix_append _ _⟩
  · rintro ⟨word, ⟨texts, hfits, rfl⟩, rest, rfl⟩
    exact matchPieces_complete hfits rest

theorem occurs_iff :
    Occurs pieces text ↔ ∃ back ∈ text.tails, (matchPieces pieces back).isSome := by
  constructor
  · rintro ⟨word, hword, hoccurs⟩
    obtain ⟨back, hatFront, hsuffix⟩ := List.infix_iff_prefix_suffix.mp hoccurs
    have hsome := isSome_matchPieces_iff.mpr ⟨word, hword, hatFront⟩
    exact ⟨back, (List.mem_tails _ _).mpr hsuffix, hsome⟩
  · rintro ⟨back, hback, hsome⟩
    obtain ⟨word, hword, hatFront⟩ := isSome_matchPieces_iff.mp hsome
    exact ⟨word, hword, hatFront.isInfix.trans ((List.mem_tails _ _).mp hback).isInfix⟩

instance : Decidable (Occurs pieces text) := decidable_of_iff _ occurs_iff.symm

/-! ### Replacing matches -/

/-- A pattern that takes one character or more. -/
def Proper (pieces : List Piece) : Prop := ∀ word, FitsWord pieces word → word ≠ []

theorem proper_one (p : Char → Bool) (pieces : List Piece) : Proper (.one p :: pieces) := by
  rintro word ⟨texts, hfits, rfl⟩
  cases hfits with
  | cons hfirst hrest =>
    obtain ⟨c, -, rfl⟩ := hfirst
    simp

theorem replaceMatchesFrom_eq_drop (pieces : List Piece) (new : List (List Char) → List Char)
    (skip : ℕ) (text : List Char) :
    replaceMatchesFrom pieces new skip text = replaceMatches pieces new (text.drop skip) := by
  induction skip generalizing text with
  | zero => rfl
  | succ skip ih =>
    cases text with
    | nil => rfl
    | cons c text => exact ih text

@[simp]
theorem replaceMatches_nil : replaceMatches pieces new [] = [] := rfl

/-- A match is replaced as a whole. -/
theorem replaceMatches_of_match (hproper : Proper pieces)
    (h : matchPieces pieces text = some (texts, rest)) :
    replaceMatches pieces new text = new texts ++ replaceMatches pieces new rest := by
  obtain ⟨hfits, rfl⟩ := matchPieces_sound h
  obtain ⟨c, word, hword⟩ := List.exists_cons_of_ne_nil (hproper _ ⟨texts, hfits, rfl⟩)
  rw [hword, List.cons_append] at h ⊢
  show replaceMatchesFrom _ _ _ _ = _
  rw [replaceMatchesFrom, h]
  dsimp only
  rw [replaceMatchesFrom_eq_drop, List.length_append, Nat.add_sub_cancel, List.drop_left]

/-- Where no match begins, the character is kept. -/
theorem replaceMatches_of_none (h : matchPieces pieces (c :: text) = none) :
    replaceMatches pieces new (c :: text) = c :: replaceMatches pieces new text := by
  show replaceMatchesFrom _ _ _ _ = _
  rw [replaceMatchesFrom, h]
  rfl

/-- An induction along the matches of a pattern. -/
theorem replaceMatches_induction (hproper : Proper pieces) {motive : List Char → Prop}
    (nil : motive [])
    (found : ∀ texts rest, List.Forall₂ Piece.Fits pieces texts →
      matchPieces pieces (texts.flatten ++ rest) = some (texts, rest) → motive rest →
      motive (texts.flatten ++ rest))
    (kept : ∀ c text, matchPieces pieces (c :: text) = none → motive text → motive (c :: text))
    (text : List Char) : motive text := by
  induction hlength : text.length using Nat.strong_induction_on generalizing text with
  | _ n ih =>
    subst hlength
    cases text with
    | nil => exact nil
    | cons c text =>
      cases hmatch : matchPieces pieces (c :: text) with
      | none => exact kept c text hmatch (ih _ (Nat.lt_succ_self _) text rfl)
      | some result =>
        obtain ⟨texts, rest⟩ := result
        obtain ⟨hfits, hsplit⟩ := matchPieces_sound hmatch
        have hpos := List.length_pos_of_ne_nil (hproper _ ⟨texts, hfits, rfl⟩)
        have hlength := congrArg List.length hsplit
        rw [List.length_append] at hlength
        rw [hsplit] at hmatch ⊢
        exact found texts rest hfits hmatch (ih _ (by omega) rest rfl)

/-- A text without words of the pattern stays. -/
theorem replaceMatches_eq_self (h : ¬ Occurs pieces text) :
    replaceMatches pieces new text = text := by
  induction text with
  | nil => rfl
  | cons c text ih =>
    have hnone : matchPieces pieces (c :: text) = none := by
      rw [← Option.not_isSome_iff_eq_none]
      intro hsome
      obtain ⟨word, hword, hatFront⟩ := isSome_matchPieces_iff.mp hsome
      exact h ⟨word, hword, hatFront.isInfix⟩
    rw [replaceMatches_of_none hnone, ih]
    rintro ⟨word, hword, hoccurs⟩
    exact h ⟨word, hword, hoccurs.trans (List.suffix_cons c text).isInfix⟩

/-! ### Characters in no class -/

def Piece.accepts : Piece → Char → Bool
  | .one p, c => p c
  | .many p, c => p c

/-- No piece takes the character. -/
def Stops (pieces : List Piece) (q : Char) : Prop := ∀ piece ∈ pieces, piece.accepts q = false

variable {q : Char}

instance : Decidable (Stops pieces q) :=
  inferInstanceAs (Decidable (∀ piece ∈ pieces, piece.accepts q = false))

theorem matchMany_append_stop (hq : p q = false) (tail : List Char)
    (hnext : ∀ text, next (text ++ q :: tail) =
      (next text).map fun found => (found.1, found.2 ++ q :: tail)) (text : List Char) :
    matchMany p next (text ++ q :: tail) =
      (matchMany p next text).map fun found => (found.1, found.2.1, found.2.2 ++ q :: tail) := by
  induction text with
  | nil =>
    have hnil := hnext []
    rw [List.nil_append] at hnil
    simp only [List.nil_append, matchMany, hq, hnil, Bool.false_eq_true, if_false, Option.map_map]
    rfl
  | cons c text ih =>
    have hcons := hnext (c :: text)
    rw [List.cons_append] at hcons
    rw [List.cons_append, matchMany, matchMany, ih, hcons]
    by_cases hc : p c = true
    · rw [if_pos hc, if_pos hc]
      cases matchMany p next text with
      | none => simp [Option.map_map, Function.comp_def]
      | some found => rfl
    · rw [if_neg hc, if_neg hc, Option.map_map, Option.map_map]
      rfl

/-- No word of the pattern has the character. -/
theorem not_mem_of_fitsWord (hq : Stops pieces q) (h : FitsWord pieces word) : q ∉ word := by
  obtain ⟨texts, hfits, rfl⟩ := h
  induction hfits with
  | nil => exact List.not_mem_nil
  | @cons piece text pieces texts hfirst _ ih =>
    have hpiece := hq piece (List.mem_cons_self ..)
    have hrest := ih fun other hother => hq other (List.mem_cons_of_mem _ hother)
    rw [List.flatten_cons, List.mem_append]
    rintro (hmem | hmem)
    · cases piece with
      | one p =>
        obtain ⟨c, hc, rfl⟩ := hfirst
        obtain rfl := List.mem_singleton.mp hmem
        exact Bool.false_ne_true (hpiece.symm.trans hc)
      | many p => exact Bool.false_ne_true (hpiece.symm.trans (hfirst q hmem))
    · exact hrest hmem

theorem matchPieces_append_stop (hq : Stops pieces q) (text tail : List Char) :
    matchPieces pieces (text ++ q :: tail) =
      (matchPieces pieces text).map fun found => (found.1, found.2 ++ q :: tail) := by
  induction pieces generalizing text with
  | nil => rfl
  | cons piece pieces ih =>
    have hpiece := hq piece (List.mem_cons_self ..)
    have hpieces := ih fun other hother => hq other (List.mem_cons_of_mem _ hother)
    cases piece with
    | one p =>
      have hp : p q = false := hpiece
      cases text with
      | nil => simp [matchPieces, hp]
      | cons c text =>
        rw [List.cons_append, matchPieces, matchPieces, hpieces]
        split
        · rw [Option.map_map, Option.map_map]
          rfl
        · rfl
    | many p =>
      have hp : p q = false := hpiece
      rw [matchPieces, matchPieces, matchMany_append_stop hp tail hpieces, Option.map_map,
        Option.map_map]
      rfl

/-- The texts before and behind such a character are looked at on their own. -/
theorem replaceMatches_append_stop (hproper : Proper pieces) (hq : Stops pieces q)
    (text tail : List Char) :
    replaceMatches pieces new (text ++ q :: tail) =
      replaceMatches pieces new text ++ q :: replaceMatches pieces new tail := by
  induction text using replaceMatches_induction hproper with
  | nil =>
    have hempty : matchPieces pieces [] = none := by
      rw [← Option.not_isSome_iff_eq_none, isSome_matchPieces_iff]
      rintro ⟨word, hword, hatFront⟩
      exact hproper word hword (List.prefix_nil.mp hatFront)
    have hnone := matchPieces_append_stop hq [] tail
    rw [hempty, List.nil_append, Option.map_none] at hnone
    rw [List.nil_append, replaceMatches_of_none hnone, replaceMatches_nil, List.nil_append]
  | found texts rest hfits hmatch ih =>
    have hlong := matchPieces_append_stop hq (texts.flatten ++ rest) tail
    rw [hmatch] at hlong
    rw [replaceMatches_of_match hproper hlong, replaceMatches_of_match hproper hmatch, ih,
      List.append_assoc]
  | kept c text hmatch ih =>
    have hlong := matchPieces_append_stop hq (c :: text) tail
    rw [hmatch, List.cons_append] at hlong
    rw [List.cons_append, replaceMatches_of_none hlong, replaceMatches_of_none hmatch, ih,
      List.cons_append]

/-! ### Pieces of a text -/

/-- A word lies on one side of a character that it does not have. -/
theorem infix_append_stop (hq : q ∉ word) (h : word <:+: front ++ q :: back) :
    word <:+: front ∨ word <:+: back := by
  induction front with
  | nil =>
    rcases List.infix_cons_iff.mp h with hatFront | hoccurs
    · obtain rfl := List.prefix_nil.mp (@prefix_of_prefix_append_cons _ q word [] back hq hatFront)
      exact .inl List.nil_infix
    · exact .inr hoccurs
  | cons c front ih =>
    rcases List.infix_cons_iff.mp h with hatFront | hoccurs
    · have hfront := @prefix_of_prefix_append_cons _ q word (c :: front) back hq hatFront
      exact .inl hfront.isInfix
    · rcases ih hoccurs with hfront | hback
      · exact .inl (hfront.trans (List.suffix_cons c front).isInfix)
      · exact .inr hback

/-- A word does not begin among characters that are not its first one. -/
theorem infix_of_head_not_mem (hc : c ∉ front) (h : c :: word <:+: front ++ back) :
    c :: word <:+: back := by
  induction front with
  | nil => exact h
  | cons d front ih =>
    rcases List.infix_cons_iff.mp h with hatFront | hoccurs
    · obtain ⟨rfl, -⟩ := List.cons_prefix_cons.mp hatFront
      exact absurd (List.mem_cons_self ..) hc
    · exact ih (fun hmem => hc (List.mem_cons_of_mem d hmem)) hoccurs

/-- The characters of a text in which matches are replaced, when each is replaced by some of its
own. -/
theorem mem_of_mem_replaceMatches (hproper : Proper pieces)
    (hnew : ∀ texts, List.Forall₂ Piece.Fits pieces texts → ∀ c ∈ new texts, c ∈ texts.flatten)
    (h : c ∈ replaceMatches pieces new text) : c ∈ text := by
  induction text using replaceMatches_induction hproper with
  | nil => exact h
  | found texts rest hfits hmatch ih =>
    rw [replaceMatches_of_match hproper hmatch, List.mem_append] at h
    exact List.mem_append.mpr (h.imp (hnew texts hfits c) ih)
  | kept d text hmatch ih =>
    rw [replaceMatches_of_none hmatch, List.mem_cons] at h
    exact List.mem_cons.mpr (h.imp_right ih)

/-! ### Changes of some characters -/

/-- Only special characters are put in, and one is left out only where another one is. -/
inductive Changes (special : Char → Prop) : List Char → List Char → Prop
  | nil : Changes special [] []
  | keep {c : Char} {before after : List Char} : Changes special before after →
      Changes special (c :: before) (c :: after)
  | insert {d : Char} {before after : List Char} : special d → Changes special before after →
      Changes special before (d :: after)
  | drop {c d : Char} {before after : List Char} : special c → special d →
      Changes special before (d :: after) → Changes special (c :: before) (d :: after)

namespace Changes

variable {special : Char → Prop} {before after before' after' : List Char}

theorem refl (text : List Char) : Changes special text text := by
  induction text with
  | nil => exact .nil
  | cons c text ih => exact .keep ih

theorem append (h : Changes special before after) (h' : Changes special before' after') :
    Changes special (before ++ before') (after ++ after') := by
  induction h with
  | nil => exact h'
  | keep _ ih => exact .keep ih
  | insert hd _ ih => exact .insert hd ih
  | drop hc hd _ ih => exact .drop hc hd ih

theorem swap {c d : Char} (hc : special c) (hd : special d) (h : Changes special before after) :
    Changes special (c :: before) (d :: after) :=
  .drop hc hd (.insert hd h)

/-- No word without special characters comes up at the front. -/
theorem prefix_of_changed (h : Changes special before after) (hword : ∀ c ∈ word, ¬ special c)
    (hatFront : word <+: after) : word <+: before := by
  induction h generalizing word with
  | nil => exact hatFront
  | @keep c before after _ ih =>
    cases word with
    | nil => exact List.nil_prefix
    | cons d word =>
      obtain ⟨rfl, htail⟩ := List.cons_prefix_cons.mp hatFront
      exact List.cons_prefix_cons.mpr
        ⟨rfl, ih (fun e he => hword e (List.mem_cons_of_mem _ he)) htail⟩
  | insert hd _ _ =>
    cases word with
    | nil => exact List.nil_prefix
    | cons e word =>
      obtain ⟨rfl, -⟩ := List.cons_prefix_cons.mp hatFront
      exact absurd hd (hword e (List.mem_cons_self ..))
  | drop _ hd _ _ =>
    cases word with
    | nil => exact List.nil_prefix
    | cons e word =>
      obtain ⟨rfl, -⟩ := List.cons_prefix_cons.mp hatFront
      exact absurd hd (hword e (List.mem_cons_self ..))

/-- No word without special characters comes up. -/
theorem infix_of_changed (h : Changes special before after) (hword : ∀ c ∈ word, ¬ special c)
    (hoccurs : word <:+: after) : word <:+: before := by
  induction h with
  | nil => exact hoccurs
  | @keep c before after hchanges ih =>
    rcases List.infix_cons_iff.mp hoccurs with hatFront | htail
    · exact (prefix_of_changed (.keep hchanges) hword hatFront).isInfix
    · exact (ih htail).trans (List.suffix_cons c before).isInfix
  | insert hd hchanges ih =>
    rcases List.infix_cons_iff.mp hoccurs with hatFront | htail
    · exact (prefix_of_changed (.insert hd hchanges) hword hatFront).isInfix
    · exact ih htail
  | @drop c _ before _ _ _ _ ih =>
    exact (ih hoccurs).trans (List.suffix_cons c before).isInfix

end Changes

end GraphLoom.Foundation
