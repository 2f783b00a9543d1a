import GraphLoom.Query.Global.Equiv.Rating

/-!
# The repair of a DRIFT answer

The expressions for bare keys and trailing commas are not aware of literals.  On a text that is
like JSON the repair keeps the literals exactly when neither of the expressions has a match in one
of them (`repairJson_keeps_iff`).
-/

namespace GraphLoom.Query.Drift

open Foundation JsonText

variable {text rest word run : List Char} {texts : List (List Char)} {c : Char} {lenient : Bool}

/-! ### The expressions -/

theorem bareKey_proper : Proper bareKey := proper_one _ _

theorem trailingComma_proper : Proper trailingComma := proper_one _ _

theorem bareKey_stops : Stops bareKey '"' := by decide

theorem trailingComma_stops : Stops trailingComma '"' := by decide

/-- The parts of a match of the first expression. -/
theorem bareKey_texts (h : List.Forall₂ Piece.Fits bareKey texts) :
    ∃ delimiter space start key gap, texts = [[delimiter], space, [start], key, gap, [':']] ∧
      (delimiter = '{' ∨ delimiter = ',') ∧ (∀ c ∈ space, isWhiteSpace c = true) ∧
      isIdentifierStart start = true ∧ (∀ c ∈ key, isIdentifierPart c = true) ∧
      ∀ c ∈ gap, isWhiteSpace c = true := by
  obtain ⟨_, _, ⟨delimiter, hdelimiter, rfl⟩, hspaces, rfl⟩ := List.forall₂_cons_left_iff.mp h
  obtain ⟨space, _, hspace, hstarts, rfl⟩ := List.forall₂_cons_left_iff.mp hspaces
  obtain ⟨_, _, ⟨start, hstart, rfl⟩, hkeys, rfl⟩ := List.forall₂_cons_left_iff.mp hstarts
  obtain ⟨key, _, hkey, hgaps, rfl⟩ := List.forall₂_cons_left_iff.mp hkeys
  obtain ⟨gap, _, hgap, hcolons, rfl⟩ := List.forall₂_cons_left_iff.mp hgaps
  obtain ⟨_, _, ⟨colon, hcolon, rfl⟩, hend, rfl⟩ := List.forall₂_cons_left_iff.mp hcolons
  obtain rfl := List.forall₂_nil_left_iff.mp hend
  obtain rfl : colon = ':' := by simpa using hcolon
  exact ⟨delimiter, space, start, key, gap, rfl, by simpa using hdelimiter, hspace, hstart, hkey,
    hgap⟩

/-- The parts of a match of the second expression. -/
theorem trailingComma_texts (h : List.Forall₂ Piece.Fits trailingComma texts) :
    ∃ space closing, texts = [[','], space, [closing]] ∧ (∀ c ∈ space, isWhiteSpace c = true) ∧
      (closing = '}' ∨ closing = ']') := by
  obtain ⟨_, _, ⟨comma, hcomma, rfl⟩, hspaces, rfl⟩ := List.forall₂_cons_left_iff.mp h
  obtain ⟨space, _, hspace, hclosings, rfl⟩ := List.forall₂_cons_left_iff.mp hspaces
  obtain ⟨_, _, ⟨closing, hclosing, rfl⟩, hend, rfl⟩ := List.forall₂_cons_left_iff.mp hclosings
  obtain rfl := List.forall₂_nil_left_iff.mp hend
  obtain rfl : comma = ',' := by simpa using hcomma
  exact ⟨space, closing, rfl, hspace, by simpa using hclosing⟩

/-- A word of the first expression: its delimiter, and a text that ends with a colon. -/
theorem bareKey_word (h : FitsWord bareKey word) :
    ∃ delimiter tail, word = delimiter :: (tail ++ [':']) ∧ (delimiter = '{' ∨ delimiter = ',') ∧
      ∀ c ∈ tail, isWhiteSpace c = true ∨ isIdentifierPart c = true := by
  obtain ⟨texts, hfits, rfl⟩ := h
  obtain ⟨delimiter, space, start, key, gap, rfl, hdelimiter, hspace, hstart, hkey, hgap⟩ :=
    bareKey_texts hfits
  refine ⟨delimiter, space ++ (start :: (key ++ gap)), by simp, hdelimiter, fun c hc => ?_⟩
  simp only [List.mem_append, List.mem_cons] at hc
  rcases hc with hc | rfl | hc | hc
  · exact .inl (hspace c hc)
  · exact .inr (BareKey.isIdentifierPart ⟨c, [], hstart, (fun _ hd => nomatch hd), rfl⟩
      (List.mem_singleton_self c))
  · exact .inr (hkey c hc)
  · exact .inl (hgap c hc)

/-! ### The first expression -/

def isQuote (c : Char) : Prop := c = '"'

/-- Quoting bare keys only puts quotes in. -/
theorem changes_quoteKeys (text : List Char) :
    Changes isQuote text (replaceMatches bareKey quoteKey text) := by
  induction text using replaceMatches_induction bareKey_proper with
  | nil => exact .nil
  | found texts rest hfits hmatch ih =>
    obtain ⟨delimiter, space, start, key, gap, rfl, -⟩ := bareKey_texts hfits
    rw [replaceMatches_of_match bareKey_proper hmatch]
    apply Changes.append _ ih
    have hquoted : Changes isQuote (([delimiter] ++ space) ++ (([start] ++ key) ++ (gap ++ [':'])))
        (([delimiter] ++ space) ++ ('"' :: (([start] ++ key) ++ ('"' :: (gap ++ [':']))))) :=
      (Changes.refl _).append (.insert rfl ((Changes.refl _).append (.insert rfl (.refl _))))
    simpa [quoteKey] using hquoted
  | kept c text hmatch ih =>
    rw [replaceMatches_of_none hmatch]
    exact .keep ih

theorem not_isQuote_of_fitsWord {pieces : List Piece} (hq : Stops pieces '"')
    (h : FitsWord pieces word) : ∀ c ∈ word, ¬ isQuote c := by
  rintro c hc rfl
  exact not_mem_of_fitsWord hq h hc

/-- No bare key is left. -/
theorem not_occurs_bareKey_quoteKeys (text : List Char) :
    ¬ Occurs bareKey (replaceMatches bareKey quoteKey text) := by
  rintro ⟨word, hword, hoccurs⟩
  have hquote := not_isQuote_of_fitsWord bareKey_stops hword
  induction text using replaceMatches_induction bareKey_proper with
  | nil =>
    obtain rfl := List.infix_nil.mp hoccurs
    exact bareKey_proper _ hword rfl
  | found texts rest hfits hmatch ih =>
    -- a word has no quote, begins with a brace or a comma and ends with a colon
    obtain ⟨delimiter, tail, rfl, hdelimiter, -⟩ := bareKey_word hword
    obtain ⟨first, space, start, key, gap, rfl, hfirst, hspace, hstart, hkey, hgap⟩ :=
      bareKey_texts hfits
    have hq : '"' ∉ delimiter :: (tail ++ [':']) := not_mem_of_fitsWord bareKey_stops hword
    have hcolon : ':' ∈ delimiter :: (tail ++ [':']) := by simp
    have hsplit (after : List Char) :
        quoteKey [[first], space, [start], key, gap, [':']] ++ after =
          (first :: space) ++ '"' :: ((start :: key) ++ '"' :: ((gap ++ [':']) ++ after)) := by
      simp [quoteKey]
    rw [replaceMatches_of_match bareKey_proper hmatch, hsplit] at hoccurs
    rcases infix_append_stop hq hoccurs with hfront | hback
    · rcases List.mem_cons.mp (hfront.subset hcolon) with heq | hmem
      · rcases hfirst with rfl | rfl <;> exact absurd heq (by decide)
      · exact absurd (hspace _ hmem) (by decide)
    rcases infix_append_stop hq hback with hmiddle | hrest
    · rcases List.mem_cons.mp (hmiddle.subset hcolon) with rfl | hmem
      · exact absurd hstart (by decide)
      · exact absurd (hkey _ hmem) (by decide)
    · refine ih (infix_of_head_not_mem ?_ hrest)
      intro hmem
      rcases List.mem_append.mp hmem with hmem | hmem
      · have hwhite := hgap _ hmem
        rcases hdelimiter with rfl | rfl <;> exact absurd hwhite (by decide)
      · rcases hdelimiter with rfl | rfl <;> exact absurd hmem (by decide)
  | kept c text hmatch ih =>
    rw [replaceMatches_of_none hmatch] at hoccurs
    rcases List.infix_cons_iff.mp hoccurs with hatFront | htail
    · -- the text itself has the word there
      have hchanges : Changes isQuote (c :: text) (c :: replaceMatches bareKey quoteKey text) :=
        .keep (changes_quoteKeys text)
      have hkept := hchanges.prefix_of_changed hquote hatFront
      have hsome := isSome_matchPieces_iff.mpr ⟨word, hword, hkept⟩
      rw [hmatch] at hsome
      exact nomatch hsome
    · exact ih htail

/-! ### The second expression -/

/-- What is left of a match of the second expression. -/
theorem dropCommas_of_match {space : List Char} {closing : Char}
    (hmatch : matchPieces trailingComma ([[','], space, [closing]].flatten ++ rest) =
      some ([[','], space, [closing]], rest)) :
    replaceMatches trailingComma dropComma ([[','], space, [closing]].flatten ++ rest) =
      space ++ closing :: replaceMatches trailingComma dropComma rest := by
  rw [replaceMatches_of_match trailingComma_proper hmatch, dropComma, List.append_assoc,
    List.singleton_append]

/-- What begins with a brace or a comma does not begin in what is left of a match. -/
theorem occurs_behind_match {space tail : List Char} {closing delimiter : Char}
    (hspace : ∀ c ∈ space, isWhiteSpace c = true) (hclosing : closing = '}' ∨ closing = ']')
    (hdelimiter : delimiter = '{' ∨ delimiter = ',')
    (hoccurs : delimiter :: tail <:+: space ++ closing :: rest) : delimiter :: tail <:+: rest := by
  have hnot : delimiter ∉ space ++ [closing] := by
    intro hmem
    rcases List.mem_append.mp hmem with hmem | hmem
    · have hwhite := hspace _ hmem
      rcases hdelimiter with rfl | rfl <;> exact absurd hwhite (by decide)
    · obtain rfl := List.mem_singleton.mp hmem
      rcases hclosing with rfl | rfl <;> rcases hdelimiter with heq | heq <;>
        exact absurd heq (by decide)
  rw [show space ++ closing :: rest = (space ++ [closing]) ++ rest by simp] at hoccurs
  exact infix_of_head_not_mem hnot hoccurs

/-- A text that ends with a colon comes up at the front only where it has been. -/
theorem prefix_of_dropCommas (hword : ∀ c ∈ word, c ≠ ',' ∧ c ≠ '}' ∧ c ≠ ']')
    (hatFront : word ++ [':'] <+: replaceMatches trailingComma dropComma text) :
    word ++ [':'] <+: text := by
  induction text using replaceMatches_induction trailingComma_proper generalizing word with
  | nil => exact hatFront
  | found texts rest hfits hmatch ih =>
    obtain ⟨space, closing, rfl, hspace, hclosing⟩ := trailingComma_texts hfits
    rw [dropCommas_of_match hmatch] at hatFront
    -- the closing bracket is not passed, and there is no colon before it
    have hnot : closing ∉ word ++ [':'] := by
      intro hmem
      rcases List.mem_append.mp hmem with hmem | hmem
      · rcases hclosing with rfl | rfl
        · exact (hword _ hmem).2.1 rfl
        · exact (hword _ hmem).2.2 rfl
      · rcases hclosing with rfl | rfl <;> exact absurd hmem (by decide)
    have hfront := prefix_of_prefix_append_cons hnot hatFront
    have hcolon : ':' ∈ space := hfront.subset (by simp)
    exact absurd (hspace _ hcolon) (by decide)
  | kept c text hmatch ih =>
    rw [replaceMatches_of_none hmatch] at hatFront
    cases word with
    | nil =>
      obtain ⟨rfl, -⟩ := List.cons_prefix_cons.mp hatFront
      exact ⟨text, rfl⟩
    | cons d word =>
      obtain ⟨rfl, htail⟩ := List.cons_prefix_cons.mp hatFront
      exact List.cons_prefix_cons.mpr
        ⟨rfl, ih (fun e he => hword e (List.mem_cons_of_mem _ he)) htail⟩

/-- Leaving commas out brings up no bare key. -/
theorem not_occurs_bareKey_dropCommas (h : ¬ Occurs bareKey text) :
    ¬ Occurs bareKey (replaceMatches trailingComma dropComma text) := by
  rintro ⟨word, hword, hoccurs⟩
  obtain ⟨delimiter, tail, rfl, hdelimiter, htail⟩ := bareKey_word hword
  have hplain : ∀ c ∈ tail, c ≠ ',' ∧ c ≠ '}' ∧ c ≠ ']' := by
    intro c hc
    refine ⟨?_, ?_, ?_⟩ <;> rintro rfl <;> exact absurd (htail _ hc) (by decide)
  apply h
  refine ⟨_, hword, ?_⟩
  clear h
  induction text using replaceMatches_induction trailingComma_proper with
  | nil => exact hoccurs
  | found texts rest hfits hmatch ih =>
    obtain ⟨space, closing, rfl, hspace, hclosing⟩ := trailingComma_texts hfits
    rw [dropCommas_of_match hmatch] at hoccurs
    exact (ih (occurs_behind_match hspace hclosing hdelimiter hoccurs)).trans
      (List.suffix_append ..).isInfix
  | kept c text hmatch ih =>
    rw [replaceMatches_of_none hmatch] at hoccurs
    rcases List.infix_cons_iff.mp hoccurs with hatFront | hinner
    · obtain ⟨rfl, hrest⟩ := List.cons_prefix_cons.mp hatFront
      have hkept := prefix_of_dropCommas hplain hrest
      exact (List.cons_prefix_cons.mpr ⟨rfl, hkept⟩).isInfix
    · exact (ih hinner).trans (List.suffix_cons c text).isInfix

/-! ### Runs of commas -/

/-- A closing bracket behind a number of commas, with white space between them. -/
inductive CommaRun : ℕ → List Char → Prop
  | closing {c : Char} : c = '}' ∨ c = ']' → CommaRun 0 [c]
  | comma {n : ℕ} {space run : List Char} : (∀ c ∈ space, isWhiteSpace c = true) → CommaRun n run →
      CommaRun (n + 1) (',' :: (space ++ run))

variable {n : ℕ}

theorem CommaRun.mem (h : CommaRun n run) (hc : c ∈ run) :
    isWhiteSpace c = true ∨ c = ',' ∨ c = '}' ∨ c = ']' := by
  induction h with
  | closing hclosing =>
    obtain rfl := List.mem_singleton.mp hc
    exact .inr (.inr hclosing)
  | comma hspace _ ih =>
    rcases List.mem_cons.mp hc with rfl | hc
    · exact .inr (.inl rfl)
    · exact (List.mem_append.mp hc).elim (fun hmem => .inl (hspace c hmem)) ih

theorem CommaRun.le_length (h : CommaRun n run) : n ≤ run.length := by
  induction h with
  | closing => exact Nat.zero_le _
  | comma _ _ ih =>
    rw [List.length_cons, List.length_append]
    omega

theorem not_isWhiteSpace_of_closing (h : c = '}' ∨ c = ']') : isWhiteSpace c = false := by
  rcases h with rfl | rfl <;> decide

/-- A run does not begin with white space. -/
theorem CommaRun.exists_cons (h : CommaRun n run) :
    ∃ c tail, run = c :: tail ∧ isWhiteSpace c = false := by
  cases h with
  | @closing c hclosing => exact ⟨c, [], rfl, not_isWhiteSpace_of_closing hclosing⟩
  | comma => exact ⟨',', _, rfl, by decide⟩

/-- The white space at the front of two texts is the same when one begins with the other. -/
theorem eq_of_space_front {space space' : List Char} {d : Char}
    (hspace : ∀ c ∈ space, isWhiteSpace c = true) (hspace' : ∀ c ∈ space', isWhiteSpace c = true)
    (hc : isWhiteSpace c = false) (hd : isWhiteSpace d = false)
    (h : space ++ c :: run <+: space' ++ d :: rest) : space = space' ∧ c = d := by
  induction space generalizing space' with
  | nil =>
    cases space' with
    | nil => exact ⟨rfl, (List.cons_prefix_cons.mp h).1⟩
    | cons e space' =>
      obtain ⟨rfl, -⟩ := List.cons_prefix_cons.mp h
      exact absurd (hspace' _ (List.mem_cons_self ..)) (by simp [hc])
  | cons e space ih =>
    cases space' with
    | nil =>
      obtain ⟨rfl, -⟩ := List.cons_prefix_cons.mp h
      exact absurd (hspace _ (List.mem_cons_self ..)) (by simp [hd])
    | cons e' space' =>
      obtain ⟨rfl, htail⟩ := List.cons_prefix_cons.mp h
      obtain ⟨rfl, heq⟩ := ih (fun x hx => hspace x (List.mem_cons_of_mem _ hx))
        (fun x hx => hspace' x (List.mem_cons_of_mem _ hx)) htail
      exact ⟨rfl, heq⟩

theorem fitsWord_trailingComma {space : List Char} (hspace : ∀ c ∈ space, isWhiteSpace c = true)
    (hc : c = '}' ∨ c = ']') : FitsWord trailingComma (',' :: (space ++ [c])) := by
  refine ⟨[[','], space, [c]], ?_, by simp⟩
  exact .cons ⟨',', rfl, rfl⟩ (.cons hspace (.cons ⟨c, by simpa using hc, rfl⟩ .nil))

/-- A run at the front of what is left has lost a comma, or is a bracket alone. -/
theorem exists_commaRun_of_front {space : List Char} (hspace : ∀ c ∈ space, isWhiteSpace c = true)
    (hrun : CommaRun n run)
    (hatFront : space ++ run <+: replaceMatches trailingComma dropComma text) :
    ∃ space' run' n', (∀ c ∈ space', isWhiteSpace c = true) ∧ CommaRun n' run' ∧
      (n' = n + 1 ∨ n' = n ∧ n = 0) ∧ space' ++ run' <+: text := by
  have hblank : ∀ c ∈ ([] : List Char), isWhiteSpace c = true := fun _ hc => nomatch hc
  induction text using replaceMatches_induction trailingComma_proper generalizing space n run with
  | nil =>
    obtain ⟨c, tail, rfl, -⟩ := hrun.exists_cons
    exact absurd (List.prefix_nil.mp hatFront) (by simp)
  | found texts rest hfits hmatch ih =>
    obtain ⟨between, closing, rfl, hbetween, hclosing⟩ := trailingComma_texts hfits
    rw [dropCommas_of_match hmatch] at hatFront
    obtain ⟨c, tail, rfl, hc⟩ := hrun.exists_cons
    obtain ⟨rfl, rfl⟩ := eq_of_space_front hspace hbetween hc
      (not_isWhiteSpace_of_closing hclosing) hatFront
    have hlost : CommaRun 1 (',' :: (space ++ [c])) := .comma hspace (.closing hclosing)
    cases hrun with
    | closing => exact ⟨[], _, 1, hblank, hlost, .inl rfl, by simp⟩
    | comma => rcases hclosing with heq | heq <;> exact absurd heq (by decide)
  | kept c text hmatch ih =>
    rw [replaceMatches_of_none hmatch] at hatFront
    cases space with
    | cons d space =>
      obtain ⟨rfl, htail⟩ := List.cons_prefix_cons.mp hatFront
      obtain ⟨space', run', n', hspace', hrun', hn, hatFront'⟩ :=
        ih (fun x hx => hspace x (List.mem_cons_of_mem _ hx)) hrun htail
      refine ⟨d :: space', run', n', ?_, hrun', hn, List.cons_prefix_cons.mpr ⟨rfl, hatFront'⟩⟩
      exact List.forall_mem_cons.mpr ⟨hspace d (List.mem_cons_self ..), hspace'⟩
    | nil =>
      cases hrun with
      | @closing d hclosing =>
        obtain ⟨rfl, -⟩ := List.cons_prefix_cons.mp hatFront
        exact ⟨[], [d], 0, hblank, .closing hclosing, .inr ⟨rfl, rfl⟩, ⟨text, rfl⟩⟩
      | @comma n between run hbetween hrun =>
        obtain ⟨rfl, htail⟩ := List.cons_prefix_cons.mp hatFront
        obtain ⟨space', run', n', hspace', hrun', hn, hatFront'⟩ := ih hbetween hrun htail
        rcases hn with rfl | ⟨rfl, rfl⟩
        · exact ⟨[], _, n + 2, hblank, .comma hspace' hrun', .inl rfl,
            List.cons_prefix_cons.mpr ⟨rfl, hatFront'⟩⟩
        · -- the comma would have been left out
          cases hrun' with
          | @closing d hclosing =>
            have hsome := isSome_matchPieces_iff.mpr ⟨_, fitsWord_trailingComma hspace' hclosing,
              List.cons_prefix_cons.mpr ⟨rfl, hatFront'⟩⟩
            rw [hmatch] at hsome
            exact nomatch hsome

/-- Each run of what is left has lost a comma. -/
theorem exists_commaRun_of_occurs (hrun : CommaRun (n + 1) run)
    (hoccurs : run <:+: replaceMatches trailingComma dropComma text) :
    ∃ run', CommaRun (n + 2) run' ∧ run' <:+: text := by
  have hnone : ∀ c ∈ ([] : List Char), isWhiteSpace c = true := fun _ hc => nomatch hc
  induction text using replaceMatches_induction trailingComma_proper with
  | nil =>
    obtain ⟨c, tail, rfl, -⟩ := hrun.exists_cons
    exact absurd (List.infix_nil.mp hoccurs) (by simp)
  | found texts rest hfits hmatch ih =>
    obtain ⟨space, closing, rfl, hspace, hclosing⟩ := trailingComma_texts hfits
    rw [dropCommas_of_match hmatch] at hoccurs
    cases hrun with
    | comma hbetween hrun =>
      obtain ⟨run', hrun', hoccurs'⟩ := ih (occurs_behind_match hspace hclosing (.inr rfl) hoccurs)
      exact ⟨run', hrun', hoccurs'.trans (List.suffix_append ..).isInfix⟩
  | kept c text hmatch ih =>
    have hwhole : replaceMatches trailingComma dropComma (c :: text) =
        c :: replaceMatches trailingComma dropComma text := replaceMatches_of_none hmatch
    rw [hwhole] at hoccurs
    rcases List.infix_cons_iff.mp hoccurs with hatFront | hinner
    · rw [← hwhole, ← List.nil_append run] at hatFront
      obtain ⟨space', run', n', hspace', hrun', hn, hatFront'⟩ :=
        exists_commaRun_of_front hnone hrun hatFront
      obtain rfl : n' = n + 2 := by omega
      exact ⟨run', hrun', (List.suffix_append space' run').isInfix.trans hatFront'.isInfix⟩
    · obtain ⟨run', hrun', hoccurs'⟩ := ih hinner
      exact ⟨run', hrun', hoccurs'.trans (List.suffix_cons c text).isInfix⟩

/-! ### Single quotes -/

/-- The characters that the loop over the strings puts in and leaves out. -/
def isSpecial (c : Char) : Prop := c = '"' ∨ c = '\x27' ∨ c = '\\'

/-- The loop changes only quotes and backslashes; an escape still has its backslash to come. -/
theorem changes_repairSingleQuoted (text : List Char) (inDouble inSingle : Bool) :
    Changes isSpecial text (repairSingleQuotedFrom inDouble inSingle false text) ∧
      Changes isSpecial ('\\' :: text) (repairSingleQuotedFrom inDouble inSingle true text) := by
  have hdouble : isSpecial '"' := .inl rfl
  have hsingle : isSpecial '\x27' := .inr (.inl rfl)
  have hslash : isSpecial '\\' := .inr (.inr rfl)
  induction text generalizing inDouble inSingle with
  | nil => exact ⟨.nil, .keep .nil⟩
  | cons c text ih =>
    constructor
    · rw [repairSingleQuotedFrom, if_neg Bool.false_ne_true]
      split
      · next hc =>
        rw [hc.1]
        exact (ih inDouble inSingle).2
      split
      · exact .keep (ih _ inSingle).1
      split
      · split
        · next hc =>
          rw [hc]
          exact .swap hsingle hdouble (ih inDouble false).1
        split
        · next hc =>
          rw [hc]
          exact .insert hslash (.keep (ih inDouble inSingle).1)
        · exact .keep (ih inDouble inSingle).1
      split
      · exact .keep (ih true inSingle).1
      split
      · next hc =>
        rw [hc]
        exact .swap hsingle hdouble (ih inDouble true).1
      · exact .keep (ih inDouble inSingle).1
    · rw [repairSingleQuotedFrom, if_pos rfl]
      split
      · next hc =>
        rw [hc.2]
        exact .drop hslash hsingle (.keep (ih inDouble inSingle).1)
      · exact .keep (.keep (ih inDouble inSingle).1)

theorem repairSingleQuoted_plain (h : ∀ c ∈ text, c ≠ '"' ∧ c ≠ '\x27') (rest : List Char) :
    repairSingleQuotedStrings (text ++ rest) = text ++ repairSingleQuotedStrings rest := by
  induction text with
  | nil => rfl
  | cons c text ih =>
    obtain ⟨hdouble, hsingle⟩ := h c (List.mem_cons_self ..)
    have hrest := ih fun d hd => h d (List.mem_cons_of_mem _ hd)
    show repairSingleQuotedFrom false false false (c :: (text ++ rest)) = _
    rw [repairSingleQuotedFrom, if_neg Bool.false_ne_true, if_neg (by simp),
      if_neg Bool.false_ne_true, if_neg Bool.false_ne_true, if_neg hdouble, if_neg hsingle]
    exact congrArg (c :: ·) hrest

/-- A literal stays. -/
theorem repairSingleQuoted_literal {body : List Char} (h : LiteralBody body) (rest : List Char) :
    repairSingleQuotedStrings (literal body ++ rest) =
      literal body ++ repairSingleQuotedStrings rest := by
  have hbody : repairSingleQuotedFrom true false false (body ++ '"' :: rest) =
      body ++ '"' :: repairSingleQuotedFrom false false false rest := by
    induction h with
    | nil => simp [repairSingleQuotedFrom]
    | plain hquote hslash _ ih => simp [repairSingleQuotedFrom, hquote, hslash, ih]
    | escape _ ih => simp [repairSingleQuotedFrom, ih]
  rw [literal_append, literal_append]
  show repairSingleQuotedFrom false false false ('"' :: (body ++ '"' :: rest)) = _
  rw [repairSingleQuotedFrom, if_neg Bool.false_ne_true, if_neg (by simp),
    if_neg Bool.false_ne_true, if_neg Bool.false_ne_true, if_pos rfl, hbody]
  rfl

/-! ### Texts like JSON -/

/-- No comma comes next. -/
def NoComma (text : List Char) : Prop := (text.dropWhile isWhiteSpace).head? ≠ some ','

/-- Outside of its literals, which are closed, a text has no single quotes and no two commas with
only white space between them. -/
inductive JsonLike : List Char → Prop
  | nil : JsonLike []
  | plain {c : Char} {rest : List Char} : c ≠ '"' → c ≠ '\x27' → c ≠ ',' → JsonLike rest →
      JsonLike (c :: rest)
  | comma {rest : List Char} : NoComma rest → JsonLike rest → JsonLike (',' :: rest)
  | quoted {body rest : List Char} : LiteralBody body → JsonLike rest →
      JsonLike (literal body ++ rest)

theorem NoComma.cons (hc : isWhiteSpace c = false) (hcomma : c ≠ ',') : NoComma (c :: text) := by
  unfold NoComma
  rw [List.dropWhile_cons_of_neg (by simp [hc])]
  simpa using hcomma

theorem NoComma.blank_append (hblank : Blank text) (h : NoComma rest) : NoComma (text ++ rest) := by
  unfold NoComma
  rw [List.dropWhile_append_of_pos fun c hc => isWhiteSpace_of_isBlank (hblank c hc)]
  exact h

theorem NoComma.of_append (h : NoComma (text ++ rest)) : NoComma text := by
  intro hhead
  apply h
  obtain ⟨tail, htail⟩ := List.head?_eq_some_iff.mp hhead
  rw [List.dropWhile_append, htail]
  rfl

theorem JsonLike.plain_append (h : ∀ c ∈ text, c ≠ '"' ∧ c ≠ '\x27' ∧ c ≠ ',')
    (hrest : JsonLike rest) : JsonLike (text ++ rest) := by
  induction text with
  | nil => exact hrest
  | cons c text ih =>
    obtain ⟨hdouble, hsingle, hcomma⟩ := h c (List.mem_cons_self ..)
    exact .plain hdouble hsingle hcomma (ih fun d hd => h d (List.mem_cons_of_mem _ hd))

theorem JsonLike.blank_append (hblank : Blank text) (hrest : JsonLike rest) :
    JsonLike (text ++ rest) := by
  refine .plain_append (fun c hc => ?_) hrest
  rcases isBlank_iff.mp (hblank c hc) with rfl | rfl | rfl | rfl <;> decide

def IsItems : Kind → Prop
  | .items _ => True
  | _ => False

/-- A piece of a text that is like JSON can stand before another one; behind a list of items no
comma may come. -/
structure Like (kind : Kind) (text : List Char) : Prop where
  append : ∀ rest, JsonLike rest → (IsItems kind → NoComma rest) → JsonLike (text ++ rest)
  noComma : ∀ rest, NoComma (text ++ rest)

variable {kind : Kind}

theorem Like.scalar (hne : text ≠ []) (h : ∀ c ∈ text, isScalarChar c = true) : Like kind text := by
  have hchar {d : Char} (hd : isScalarChar d = false) : ∀ c ∈ text, c ≠ d :=
    ne_of_isScalarChar h hd
  constructor
  · intro rest hrest _
    exact hrest.plain_append fun c hc => ⟨hchar (by decide) c hc, hchar (by decide) c hc,
      hchar (by decide) c hc⟩
  · intro rest
    obtain ⟨c, tail, rfl⟩ := List.exists_cons_of_ne_nil hne
    exact .cons (isWhiteSpace_of_isScalarChar (h c (List.mem_cons_self ..)))
      (hchar (by decide) c (List.mem_cons_self ..))

theorem Like.string (h : StringText lenient text) : Like kind text := by
  obtain ⟨body, hbody, rfl⟩ := h.exists_literal
  constructor
  · intro rest hrest _
    exact .quoted hbody hrest
  · intro rest
    rw [literal_append]
    exact .cons (by decide) (by decide)

theorem Like.key (h : KeyText lenient text) : Like .value text := by
  rcases h with hstring | ⟨-, hbare⟩
  · exact .string hstring
  · obtain ⟨first, tail, hfirst, htail, rfl⟩ := id hbare
    have hpart (c : Char) (hc : c ∈ first :: tail) := hbare.isIdentifierPart hc
    constructor
    · intro rest hrest _
      refine hrest.plain_append fun c hc => ?_
      refine ⟨?_, ?_, ?_⟩ <;> rintro rfl <;> exact absurd (hpart _ hc) (by decide)
    · intro rest
      have hhead := hpart first (List.mem_cons_self ..)
      simp only [isIdentifierPart, Bool.or_eq_true, beq_iff_eq] at hhead
      rcases hhead with halphanum | rfl
      · apply NoComma.cons (isWhiteSpace_of_isAlphanum halphanum)
        rintro rfl
        exact absurd halphanum (by decide)
      · exact .cons (by decide) (by decide)

theorem Like.pad {before after : List Char} (hbefore : Blank before)
    (h : Like .value text) (hafter : Blank after) : Like kind (before ++ (text ++ after)) := by
  constructor
  · intro rest hrest _
    rw [List.append_assoc, List.append_assoc]
    exact .blank_append hbefore (h.append _ (.blank_append hafter hrest) fun h => h.elim)
  · intro rest
    rw [List.append_assoc]
    exact .blank_append hbefore (by rw [List.append_assoc]; exact h.noComma _)

theorem Like.enclose (container : Container)
    (h : ∀ rest, JsonLike rest → NoComma rest → JsonLike (text ++ rest)) :
    Like .value (container.enclose text) := by
  have hclosed {c : Char} (hc : c = ']' ∨ c = '}') {rest : List Char} (hrest : JsonLike rest) :
      JsonLike (text ++ c :: rest) := by
    rcases hc with rfl | rfl <;>
      exact h _ (.plain (by decide) (by decide) (by decide) hrest) (.cons (by decide) (by decide))
  cases container with
  | array =>
    refine ⟨fun rest hrest _ => ?_, fun rest => .cons (by decide) (by decide)⟩
    show JsonLike ('[' :: (text ++ [']'] ++ rest))
    rw [List.append_assoc]
    exact .plain (by decide) (by decide) (by decide) (hclosed (.inl rfl) hrest)
  | object =>
    refine ⟨fun rest hrest _ => ?_, fun rest => .cons (by decide) (by decide)⟩
    show JsonLike ('{' :: (text ++ ['}'] ++ rest))
    rw [List.append_assoc]
    exact .plain (by decide) (by decide) (by decide) (hclosed (.inr rfl) hrest)

theorem like_of_derives (h : Derives lenient kind text) : Like kind text := by
  induction h with
  | constant hname =>
    exact .scalar (constants_ne_nil hname) fun _ hc => constants_isScalarChar hname hc
  | number hnumber => exact .scalar hnumber.ne_nil fun _ hc => hnumber.isScalarChar hc
  | string hstring => exact .string hstring
  | empty container hblank =>
    exact .enclose container fun rest hrest _ => .blank_append hblank hrest
  | @container container _ _ ih =>
    exact .enclose container fun rest hrest hcomma => ih.append rest hrest fun _ => hcomma
  | element hbefore _ hafter ih => exact .pad hbefore ih hafter
  | @member before key between gap value after hbefore hkey hbetween hgap _ hafter ih =>
    have hvalue : Like .value (gap ++ (value ++ after)) := .pad hgap ih hafter
    constructor
    · intro rest hrest _
      rw [List.append_assoc, List.append_assoc, List.append_assoc, List.cons_append]
      apply JsonLike.blank_append hbefore
      apply (Like.key hkey).append _ _ fun h => h.elim
      apply JsonLike.blank_append hbetween
      apply JsonLike.plain (by decide) (by decide) (by decide)
      exact hvalue.append rest hrest fun h => h.elim
    · intro rest
      rw [List.append_assoc, List.append_assoc]
      exact .blank_append hbefore ((Like.key hkey).noComma _)
  | last _ ih => exact ⟨fun rest hrest _ => ih.append rest hrest fun h => h.elim, ih.noComma⟩
  | more _ _ ihItem ihItems =>
    constructor
    · intro rest hrest hcomma
      rw [List.append_assoc, List.cons_append]
      apply ihItem.append _ _ fun h => h.elim
      exact .comma (ihItems.noComma rest) (ihItems.append rest hrest hcomma)
    · intro rest
      rw [List.append_assoc]
      exact ihItem.noComma _
  | trailing _ _ hblank ih =>
    constructor
    · intro rest hrest hcomma
      rw [List.append_assoc, List.cons_append]
      apply ih.append _ _ fun h => h.elim
      exact .comma (.blank_append hblank (hcomma trivial)) (.blank_append hblank hrest)
    · intro rest
      rw [List.append_assoc]
      exact ih.noComma _

theorem jsonLike_of_objectText (h : ObjectText lenient text) : JsonLike text := by
  obtain ⟨inner, hinner, rfl⟩ := h
  have hlike : Like .value (Container.enclose .object inner) := by
    rcases hinner with hblank | hitems
    · exact like_of_derives (@Derives.empty lenient .object _ hblank)
    · exact like_of_derives (.container hitems)
  have hwhole := hlike.append [] .nil fun h => h.elim
  rwa [List.append_nil] at hwhole

/-- What is known of the segments of such a text. -/
def LikeSegment : Segment → Prop
  | .outside text => '\x27' ∉ text ∧ ∀ space : List Char, (∀ c ∈ space, isWhiteSpace c = true) →
      ¬ ',' :: (space ++ [',']) <:+: text
  | .literal text => ∃ body, LiteralBody body ∧ text = literal body

theorem LikeSegment.cons (hsingle : c ≠ '\x27') (hcomma : c = ',' → NoComma text)
    (h : LikeSegment (.outside text)) : LikeSegment (.outside (c :: text)) := by
  obtain ⟨hsingles, hcommas⟩ := h
  refine ⟨?_, fun space hspace hoccurs => ?_⟩
  · simpa [hsingle.symm] using hsingles
  · rcases List.infix_cons_iff.mp hoccurs with hatFront | hinner
    · obtain ⟨heq, htail⟩ := List.cons_prefix_cons.mp hatFront
      apply hcomma heq.symm
      obtain ⟨rest, rfl⟩ := htail
      rw [List.append_assoc, List.dropWhile_append_of_pos hspace]
      rfl
    · exact hcommas space hspace hinner

theorem JsonLike.exists_segments (h : JsonLike text) :
    ∃ front segments, Segments text (.outside front :: segments) ∧
      ∀ segment ∈ Segment.outside front :: segments, LikeSegment segment := by
  have hempty : LikeSegment (.outside []) := by
    refine ⟨List.not_mem_nil, fun space _ hoccurs => ?_⟩
    exact absurd (List.infix_nil.mp hoccurs) (by simp)
  induction h with
  | nil => exact ⟨[], [], .outside List.not_mem_nil, by simpa using hempty⟩
  | plain hdouble hsingle hcomma _ ih =>
    obtain ⟨front, segments, hsegments, hlike⟩ := ih
    refine ⟨_, segments, hsegments.cons hdouble, ?_⟩
    rw [List.forall_mem_cons] at hlike ⊢
    exact ⟨hlike.1.cons hsingle fun h => absurd h hcomma, hlike.2⟩
  | @comma rest hcomma _ ih =>
    obtain ⟨front, segments, hsegments, hlike⟩ := ih
    refine ⟨_, segments, hsegments.cons (by decide), ?_⟩
    rw [List.forall_mem_cons] at hlike ⊢
    have hsplit : front ++ segments.flatMap Segment.chars = rest := hsegments.flatMap_chars
    rw [← hsplit] at hcomma
    exact ⟨hlike.1.cons (by decide) fun _ => hcomma.of_append, hlike.2⟩
  | quoted hbody _ ih =>
    obtain ⟨front, segments, hsegments, hlike⟩ := ih
    refine ⟨[], _, .closed List.not_mem_nil hbody hsegments, ?_⟩
    rw [List.forall_mem_cons, List.forall_mem_cons]
    exact ⟨hempty, ⟨_, hbody, rfl⟩, hlike⟩

/-! ### What the repair keeps -/

/-- No match of either of the expressions. -/
def Unmatched (text : List Char) : Prop := ¬ Occurs bareKey text ∧ ¬ Occurs trailingComma text

variable {segments : List Segment}

/-- A run without quotes is in one of the segments. -/
theorem exists_segment_of_occurs (h : Segments text segments)
    (hquote : '"' ∉ word) (hoccurs : word <:+: text) :
    ∃ segment ∈ segments, word <:+: segment.chars := by
  induction h with
  | outside => exact ⟨_, List.mem_singleton_self _, hoccurs⟩
  | @closed text body rest segments _ _ _ ih =>
    rw [literal_append] at hoccurs
    rcases infix_append_stop hquote hoccurs with hfront | hback
    · exact ⟨.outside text, by simp, hfront⟩
    rcases infix_append_stop hquote hback with hbody | hrest
    · refine ⟨.literal (literal body), by simp, hbody.trans ?_⟩
      exact ⟨['"'], ['"'], rfl⟩
    · obtain ⟨segment, hmem, hinner⟩ := ih hrest
      exact ⟨segment, by simp [hmem], hinner⟩
  | @unclosed text body _ _ =>
    rcases infix_append_stop hquote hoccurs with hfront | hback
    · exact ⟨.outside text, by simp, hfront⟩
    · exact ⟨.literal ('"' :: body), by simp, hback.trans (List.suffix_cons '"' body).isInfix⟩
  | @escaping text body _ _ =>
    rcases infix_append_stop hquote hoccurs with hfront | hback
    · exact ⟨.outside text, by simp, hfront⟩
    · exact ⟨.literal ('"' :: (body ++ ['\\'])), by simp,
        hback.trans (List.suffix_cons '"' _).isInfix⟩

/-- A word without special characters that is left has been in the text with its keys quoted. -/
theorem infix_of_changed_repaired (hword : ∀ c ∈ word, ¬ isSpecial c)
    (h : word <:+: repairSingleQuotedStrings text) : word <:+: text :=
  (changes_repairSingleQuoted text false false).1.infix_of_changed hword h

/-- A literal that is kept has no bare key. -/
theorem not_occurs_bareKey_of_kept {literal : List Char}
    (h : literal <:+: repairSingleQuotedStrings
      (replaceMatches trailingComma dropComma (replaceMatches bareKey quoteKey text))) :
    ¬ Occurs bareKey literal := by
  rintro ⟨word, hword, hoccurs⟩
  have hspecial : ∀ c ∈ word, ¬ isSpecial c := by
    rintro c hc (rfl | rfl | rfl)
    · exact not_mem_of_fitsWord (show Stops bareKey '"' by decide) hword hc
    · exact not_mem_of_fitsWord (show Stops bareKey '\x27' by decide) hword hc
    · exact not_mem_of_fitsWord (show Stops bareKey '\\' by decide) hword hc
  have hleft := infix_of_changed_repaired hspecial (hoccurs.trans h)
  exact not_occurs_bareKey_dropCommas (not_occurs_bareKey_quoteKeys text) ⟨word, hword, hleft⟩

/-- A run in a literal that is kept comes from a longer one, which is in a literal too. -/
theorem exists_longer_run {output : List Char}
    (hsegments : Segments text segments) (hlike : ∀ segment ∈ segments, LikeSegment segment)
    (houtput : output = repairSingleQuotedStrings
      (replaceMatches trailingComma dropComma (replaceMatches bareKey quoteKey text)))
    (hkept : Kept segments output) {literal : List Char} (hliteral : .literal literal ∈ segments)
    (hrun : CommaRun (n + 1) run) (hoccurs : run <:+: literal) :
    ∃ literal' run', .literal literal' ∈ segments ∧ CommaRun (n + 2) run' ∧ run' <:+: literal' := by
  have hchar {m : ℕ} {run : List Char} (hrun : CommaRun m run) (c : Char) (hc : c ∈ run)
      {d : Char} (hd : isWhiteSpace d = false ∧ d ≠ ',' ∧ d ≠ '}' ∧ d ≠ ']') : c ≠ d := by
    rintro rfl
    rcases hrun.mem hc with hwhite | rfl | rfl | rfl
    · exact Bool.false_ne_true (hd.1.symm.trans hwhite)
    · exact hd.2.1 rfl
    · exact hd.2.2.1 rfl
    · exact hd.2.2.2 rfl
  have hspecial : ∀ c ∈ run, ¬ isSpecial c := by
    intro c hc
    rintro (rfl | rfl | rfl) <;> exact hchar hrun _ hc (by decide) rfl
  have hleft := hoccurs.trans (hkept.occurs hliteral)
  rw [houtput] at hleft
  obtain ⟨run', hrun', hoccurs'⟩ :=
    exists_commaRun_of_occurs hrun (infix_of_changed_repaired hspecial hleft)
  have hquote : '"' ∉ run' := fun hmem => hchar hrun' _ hmem (by decide) rfl
  have horiginal : run' <:+: text :=
    (changes_quoteKeys text).infix_of_changed
      (fun c hc (hq : c = '"') => hquote (hq ▸ hc)) hoccurs'
  obtain ⟨segment, hmem, hinner⟩ := exists_segment_of_occurs hsegments hquote horiginal
  cases segment with
  | literal literal' => exact ⟨literal', run', hmem, hrun', hinner⟩
  | outside front =>
    -- two commas of a run are not outside of a literal
    cases hrun' with
    | @comma _ space _ hspace hrest =>
      cases hrest with
      | @comma _ between tail _ _ =>
        have hatFront : ',' :: (space ++ [',']) <+: ',' :: (space ++ ',' :: (between ++ tail)) :=
          ⟨between ++ tail, by simp⟩
        have hpair : ',' :: (space ++ [',']) <:+: front := hatFront.isInfix.trans hinner
        exact absurd hpair ((hlike _ hmem).2 space hspace)

/-- A literal that is kept has no comma before a closing bracket. -/
theorem not_occurs_trailingComma_of_kept {output : List Char}
    (hsegments : Segments text segments) (hlike : ∀ segment ∈ segments, LikeSegment segment)
    (houtput : output = repairSingleQuotedStrings
      (replaceMatches trailingComma dropComma (replaceMatches bareKey quoteKey text)))
    (hkept : Kept segments output) {literal : List Char} (hliteral : .literal literal ∈ segments) :
    ¬ Occurs trailingComma literal := by
  rintro ⟨word, ⟨texts, hfits, rfl⟩, hoccurs⟩
  obtain ⟨space, closing, rfl, hspace, hclosing⟩ := trailingComma_texts hfits
  have hrun : CommaRun 1 ([[','], space, [closing]].flatten) := by
    simpa using CommaRun.comma hspace (.closing hclosing)
  -- there would be runs of any length
  have hruns : ∀ n, ∃ literal run, .literal literal ∈ segments ∧ CommaRun (n + 1) run ∧
      run <:+: literal := by
    intro n
    induction n with
    | zero => exact ⟨literal, _, hliteral, hrun, hoccurs⟩
    | succ n ih =>
      obtain ⟨literal', run, hmem, hlonger, hinner⟩ := ih
      exact exists_longer_run hsegments hlike houtput hkept hmem hlonger hinner
  obtain ⟨literal', run, hmem, hlong, hinner⟩ := hruns output.length
  have hlength := (hinner.trans (hkept.occurs hmem)).length_le
  have hcommas := hlong.le_length
  omega

/-! ### The repair without matches in literals -/

theorem replaceMatches_literal {pieces : List Piece} {new : List (List Char) → List Char}
    (hproper : Proper pieces) (hq : Stops pieces '"') (text body rest : List Char) :
    replaceMatches pieces new (text ++ (literal body ++ rest)) =
      replaceMatches pieces new text ++
        (literal (replaceMatches pieces new body) ++ replaceMatches pieces new rest) := by
  rw [literal_append, replaceMatches_append_stop hproper hq, replaceMatches_append_stop hproper hq,
    literal_append]

/-- Texts in which only keys have quotes. -/
inductive Keyed : List Char → Prop
  | plain {text : List Char} : (∀ c ∈ text, c ≠ '"' ∧ c ≠ '\x27') → Keyed text
  | key {text key rest : List Char} : (∀ c ∈ text, c ≠ '"' ∧ c ≠ '\x27') →
      (∀ c ∈ key, isIdentifierPart c = true) → Keyed rest → Keyed (text ++ (literal key ++ rest))

theorem Keyed.plain_append (htext : ∀ c ∈ text, c ≠ '"' ∧ c ≠ '\x27') (h : Keyed rest) :
    Keyed (text ++ rest) := by
  cases h with
  | plain hrest =>
    exact .plain fun c hc => (List.mem_append.mp hc).elim (htext c) (hrest c)
  | key hfront hkey hrest =>
    rw [← List.append_assoc]
    exact .key (fun c hc => (List.mem_append.mp hc).elim (htext c) (hfront c)) hkey hrest

theorem literalBody_of_identifier {key : List Char}
    (h : ∀ c ∈ key, isIdentifierPart c = true) : LiteralBody key := by
  apply LiteralBody.of_plain
  intro c hc
  constructor <;> rintro rfl <;> exact absurd (h _ hc) (by decide)

theorem Keyed.closedText (h : Keyed text) : ClosedText text := by
  induction h with
  | @plain text htext =>
    rw [← List.append_nil text]
    exact .plain_append (fun hmem => (htext _ hmem).1 rfl) .nil
  | key htext hkey _ ih =>
    have hquoted := ClosedText.quoted (literalBody_of_identifier hkey) ih
    exact hquoted.plain_append fun hmem => (htext _ hmem).1 rfl

theorem Keyed.repairSingleQuoted (h : Keyed text) (rest : List Char) :
    repairSingleQuotedStrings (text ++ rest) = text ++ repairSingleQuotedStrings rest := by
  induction h with
  | plain htext => exact repairSingleQuoted_plain htext rest
  | key htext hkey _ ih =>
    rw [List.append_assoc, List.append_assoc, repairSingleQuoted_plain htext,
      repairSingleQuoted_literal (literalBody_of_identifier hkey), ih, List.append_assoc,
      List.append_assoc]

theorem keyed_quoteKeys (h : ∀ c ∈ text, c ≠ '"' ∧ c ≠ '\x27') :
    Keyed (replaceMatches bareKey quoteKey text) := by
  induction text using replaceMatches_induction bareKey_proper with
  | nil => exact .plain h
  | found texts rest hfits hmatch ih =>
    obtain ⟨delimiter, space, start, key, gap, rfl, -, -, hstart, hkey, -⟩ := bareKey_texts hfits
    have hrest := ih fun c hc => h c (List.mem_append_right _ hc)
    have hsplit (after : List Char) :
        quoteKey [[delimiter], space, [start], key, gap, [':']] ++ after =
          (delimiter :: space) ++ (literal (start :: key) ++ ((gap ++ [':']) ++ after)) := by
      simp [quoteKey, literal]
    rw [replaceMatches_of_match bareKey_proper hmatch, hsplit]
    apply Keyed.key
    · intro c hc
      exact h c (by simp only [List.mem_append, List.flatten_cons, List.mem_cons] at hc ⊢; tauto)
    · intro c hc
      exact BareKey.isIdentifierPart ⟨start, key, hstart, hkey, rfl⟩ hc
    · apply Keyed.plain_append _ hrest
      intro c hc
      exact h c (by
        simp only [List.mem_append, List.flatten_cons, List.mem_cons] at hc ⊢
        tauto)
  | kept c text hmatch ih =>
    rw [replaceMatches_of_none hmatch]
    have hc := h c (List.mem_cons_self ..)
    have hrest := ih fun d hd => h d (List.mem_cons_of_mem _ hd)
    exact @Keyed.plain_append [c] _ (by simpa using hc) hrest

theorem Keyed.dropCommas (h : Keyed text) :
    Keyed (replaceMatches trailingComma dropComma text) := by
  have hnew : ∀ texts, List.Forall₂ Piece.Fits trailingComma texts →
      ∀ c ∈ dropComma texts, c ∈ texts.flatten := by
    intro texts hfits c hc
    obtain ⟨space, closing, rfl, -, -⟩ := trailingComma_texts hfits
    simp only [dropComma, List.flatten_cons, List.flatten_nil, List.append_nil] at hc ⊢
    exact List.mem_append_right _ hc
  have hplain {text : List Char} (htext : ∀ c ∈ text, c ≠ '"' ∧ c ≠ '\x27') :
      ∀ c ∈ replaceMatches trailingComma dropComma text, c ≠ '"' ∧ c ≠ '\x27' :=
    fun c hc => htext c (mem_of_mem_replaceMatches trailingComma_proper hnew hc)
  induction h with
  | plain htext => exact .plain (hplain htext)
  | @key text key rest htext hkey _ ih =>
    have hsame : replaceMatches trailingComma dropComma key = key := by
      apply replaceMatches_eq_self
      rintro ⟨word, ⟨texts, hfits, rfl⟩, hoccurs⟩
      obtain ⟨space, closing, rfl, -, -⟩ := trailingComma_texts hfits
      have hcomma : ',' ∈ key := hoccurs.subset (by simp)
      exact absurd (hkey _ hcomma) (by decide)
    rw [replaceMatches_literal trailingComma_proper trailingComma_stops, hsame]
    exact .key (hplain htext) hkey ih

/-- The repair of what stands outside of the literals. -/
def repairOutside (text : List Char) : List Char :=
  replaceMatches trailingComma dropComma (replaceMatches bareKey quoteKey text)

/-- Without matches in its literals a text keeps them. -/
theorem kept_repair (hsegments : Segments text segments)
    (hlike : ∀ segment ∈ segments, LikeSegment segment)
    (hunmatched : ∀ literal, .literal literal ∈ segments → Unmatched literal) :
    Kept segments (repairSingleQuotedStrings (repairOutside text)) := by
  have hkeyed {text : List Char} (hquote : '"' ∉ text) (htext : LikeSegment (.outside text)) :
      Keyed (repairOutside text) := by
    refine (keyed_quoteKeys fun c hc => ⟨?_, ?_⟩).dropCommas
    · rintro rfl
      exact hquote hc
    · rintro rfl
      exact htext.1 hc
  induction hsegments with
  | @outside text hquote =>
    have houtside := hkeyed hquote (hlike _ (List.mem_singleton_self _))
    have hsame := houtside.repairSingleQuoted []
    rw [List.append_nil] at hsame
    rw [hsame]
    exact .outside houtside.closedText .nil
  | @closed text body rest segments hquote hbody _ ih =>
    rw [List.forall_mem_cons, List.forall_mem_cons] at hlike
    have hliteral := hunmatched (literal body) (by simp)
    have hinner : body <:+: literal body := ⟨['"'], ['"'], rfl⟩
    have hkeys : replaceMatches bareKey quoteKey body = body := by
      apply replaceMatches_eq_self
      rintro ⟨word, hword, hoccurs⟩
      exact hliteral.1 ⟨word, hword, hoccurs.trans hinner⟩
    have hcommas : replaceMatches trailingComma dropComma body = body := by
      apply replaceMatches_eq_self
      rintro ⟨word, hword, hoccurs⟩
      exact hliteral.2 ⟨word, hword, hoccurs.trans hinner⟩
    have hsplit : repairOutside (text ++ (literal body ++ rest)) =
        repairOutside text ++ (literal body ++ repairOutside rest) := by
      rw [repairOutside, replaceMatches_literal bareKey_proper bareKey_stops, hkeys,
        replaceMatches_literal trailingComma_proper trailingComma_stops, hcommas]
      rfl
    have houtside := hkeyed hquote hlike.1
    rw [hsplit, houtside.repairSingleQuoted, repairSingleQuoted_literal hbody]
    have hrest := ih hlike.2.2 fun literal hmem => hunmatched literal (by simp [hmem])
    exact .outside houtside.closedText (.literal hrest)
  | @unclosed text body hquote hbody =>
    obtain ⟨front, hfront, heq⟩ := hlike (.literal ('"' :: body)) (by simp)
    exact absurd (by rw [List.append_nil, (List.cons.inj heq).2])
      (hbody.ne_append_quote (.inl rfl) hfront)
  | @escaping text body hquote hbody =>
    obtain ⟨front, hfront, heq⟩ := hlike (.literal ('"' :: (body ++ ['\\']))) (by simp)
    exact absurd (List.cons.inj heq).2 (hbody.ne_append_quote (.inr rfl) hfront)

/-- **The repair keeps the literals exactly when they have no match.**  The text is like JSON, with
keys that may be bare and commas that may trail. -/
theorem repairJson_keeps_iff {input : String} (hinput : ObjectText true input.toList)
    {segments : List Segment} (hsegments : Segments input.toList segments) :
    (∃ output, repairJson input = some output ∧ Kept segments output.toList) ↔
      ∀ literal, .literal literal ∈ segments →
        ¬ Occurs bareKey literal ∧ ¬ Occurs trailingComma literal := by
  obtain ⟨front, segments', hsegments', hlike⟩ := (jsonLike_of_objectText hinput).exists_segments
  obtain rfl := hsegments.unique hsegments'
  constructor
  · rintro ⟨output, houtput, hkept⟩ literal hliteral
    obtain rfl := Option.some.inj houtput
    rw [String.toList_ofList] at hkept
    exact ⟨not_occurs_bareKey_of_kept (hkept.occurs hliteral),
      not_occurs_trailingComma_of_kept hsegments hlike rfl hkept hliteral⟩
  · intro hunmatched
    refine ⟨_, rfl, ?_⟩
    rw [String.toList_ofList]
    exact kept_repair hsegments hlike hunmatched

/-! ### A comma and a colon in an answer -/

theorem objectText_of_trailing {key body : List Char} (hkey : KeyText true key)
    (hbody : LiteralBody body) :
    ObjectText true ('{' :: (key ++ (':' :: (literal body ++ [','])) ++ ['}'])) := by
  have hblank : Blank [] := fun _ hc => nomatch hc
  have hvalue : Derives true .value (literal body) := .string ⟨body, .inr ⟨rfl, hbody⟩, rfl⟩
  have hitem := Derives.member hblank hkey hblank hblank hvalue hblank
  refine ⟨_, .inr (.trailing rfl hitem hblank), ?_⟩
  simp [Container.enclose]

def answerInput : String := "\x7b\"b\":\"x, y: z\",\x7d"

def answerSegments : List Segment :=
  [.outside ['{'], .literal (literal ['b']), .outside [':'],
    .literal (literal ['x', ',', ' ', 'y', ':', ' ', 'z']), .outside [',', '}']]

theorem answer_literalBody : LiteralBody ['x', ',', ' ', 'y', ':', ' ', 'z'] :=
  .of_plain (List.all_iff_forall_prop.mp (by decide))

theorem key_literalBody : LiteralBody ['b'] := .of_plain (List.all_iff_forall_prop.mp (by decide))

theorem answerSegments_segments : Segments answerInput.toList answerSegments := by
  have hend : Segments [',', '}'] [.outside [',', '}']] := .outside (by decide)
  have hcolon := Segments.closed (show '"' ∉ [':'] by decide) answer_literalBody hend
  exact .closed (show '"' ∉ ['{'] by decide) key_literalBody hcolon

/-- A comma, a word and a colon in an answer are taken for a bare key. -/
theorem repairJson_answer :
    ObjectText true answerInput.toList ∧ Segments answerInput.toList answerSegments ∧
      repairJson answerInput = some "\x7b\"b\":\"x, \"y\": z\"\x7d" ∧
      ¬ ∃ output, repairJson answerInput = some output ∧ Kept answerSegments output.toList := by
  have hkey : StringText true (literal ['b']) := ⟨['b'], .inr ⟨rfl, key_literalBody⟩, rfl⟩
  refine ⟨objectText_of_trailing (.inl hkey) answer_literalBody, answerSegments_segments, by decide +kernel, ?_⟩
  rintro ⟨output, houtput, hkept⟩
  obtain rfl := Option.some.inj houtput
  rw [String.toList_ofList] at hkept
  have hliteral : .literal (literal ['x', ',', ' ', 'y', ':', ' ', 'z']) ∈ answerSegments := by
    decide
  exact not_occurs_bareKey_of_kept (hkept.occurs hliteral) (by decide)

def noteInput : String := "\x7bnote:\"a, b\",\x7d"

def noteSegments : List Segment :=
  [.outside ['{', 'n', 'o', 't', 'e', ':'], .literal (literal ['a', ',', ' ', 'b']),
    .outside [',', '}']]

theorem repairJson_keeps_note :
    ∃ output, repairJson noteInput = some output ∧ Kept noteSegments output.toList := by
  have hbody : LiteralBody ['a', ',', ' ', 'b'] := .of_plain (List.all_iff_forall_prop.mp (by decide))
  have hkey : BareKey ['n', 'o', 't', 'e'] :=
    ⟨'n', ['o', 't', 'e'], by decide, List.all_eq_true.mp (by decide), rfl⟩
  have hend : Segments [',', '}'] [.outside [',', '}']] := .outside (by decide)
  have hsegments : Segments noteInput.toList noteSegments :=
    .closed (show '"' ∉ ['{', 'n', 'o', 't', 'e', ':'] by decide) hbody hend
  have hinput : ObjectText true noteInput.toList := objectText_of_trailing (.inr ⟨rfl, hkey⟩) hbody
  refine (repairJson_keeps_iff hinput hsegments).mpr fun text hmem => ?_
  obtain rfl : text = literal ['a', ',', ' ', 'b'] := by simpa [noteSegments] using hmem
  decide

end GraphLoom.Query.Drift
