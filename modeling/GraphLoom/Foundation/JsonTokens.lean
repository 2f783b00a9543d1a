import GraphLoom.Foundation.JsonText
import Mathlib.Data.List.Count

/-!
# Tokens of JSON texts

A JSON text is a row of tokens with white space around them.  A text has at most one row
(`Lexes.unique`), and a change of the white space leaves the row as it is (`Lexes.respace`).
-/

namespace GraphLoom.Foundation.JsonText

/-- A mark of structure, a name or a number, and the body of a string. -/
inductive Token where
  | mark (c : Char)
  | word (text : List Char)
  | string (body : List Char)
deriving DecidableEq, Repr

def Token.chars : Token → List Char
  | .mark c => [c]
  | .word text => text
  | .string body => literal body

def Token.isWord : Token → Bool
  | .word _ => true
  | _ => false

def isMark (c : Char) : Bool := c ∈ ['{', '}', '[', ']', ':', ',']

/-- The tokens of a text.  Two words do not follow each other, which they do in no JSON text. -/
inductive Lexes : List Char → List Token → Prop
  | nil : Lexes [] []
  | blank {c : Char} {text : List Char} {tokens : List Token} : isBlank c = true →
      Lexes text tokens → Lexes (c :: text) tokens
  | mark {c : Char} {text : List Char} {tokens : List Token} : isMark c = true →
      Lexes text tokens → Lexes (c :: text) (.mark c :: tokens)
  | word {c : Char} {rest text : List Char} {tokens : List Token} : isScalarChar c = true →
      (∀ d ∈ rest, isScalarChar d = true) → Lexes text tokens →
      (∀ token ∈ tokens.head?, token.isWord = false) →
      Lexes (c :: (rest ++ text)) (.word (c :: rest) :: tokens)
  | string {body text : List Char} {tokens : List Token} : LiteralBody body →
      Lexes text tokens → Lexes ('"' :: (body ++ '"' :: text)) (.string body :: tokens)

variable {text text' front back blank : List Char} {tokens tokens' rest : List Token} {c : Char}

/-! ### One row of tokens -/

/-- A run of characters that satisfy a condition ends at the first one that does not. -/
theorem append_inj_of_span {p : Char → Bool} (hfront : ∀ c ∈ front, p c = true)
    (hback : ∀ c ∈ back, p c = true) (htext : ∀ c ∈ text.head?, p c = false)
    (htext' : ∀ c ∈ text'.head?, p c = false) (heq : front ++ text = back ++ text') :
    front = back ∧ text = text' := by
  have hhead {run : List Char} {c : Char} {tail : List Char} (hrun : ∀ d ∈ run, p d = true)
      (hc : p c = false) (h : c :: tail = run ++ text') : run = [] := by
    cases run with
    | nil => rfl
    | cons d run =>
      obtain ⟨rfl, -⟩ := List.cons.inj h
      rw [hrun c (List.mem_cons_self ..)] at hc
      exact nomatch hc
  induction front generalizing back with
  | nil =>
    cases text with
    | nil =>
      obtain ⟨rfl, rfl⟩ := List.append_eq_nil_iff.mp heq.symm
      exact ⟨rfl, rfl⟩
    | cons c tail =>
      obtain rfl := hhead hback (htext c rfl) heq
      exact ⟨rfl, heq⟩
  | cons c front ih =>
    have hc : p c = true := hfront c (List.mem_cons_self ..)
    cases back with
    | nil =>
      have hfalse := htext' c (by rw [← List.nil_append text', ← heq]; rfl)
      exact absurd (hc.symm.trans hfalse) (by decide)
    | cons d back =>
      obtain ⟨rfl, htail⟩ := List.cons.inj heq
      obtain ⟨rfl, hrest⟩ := ih (fun d hd => hfront d (List.mem_cons_of_mem _ hd))
        (fun d hd => hback d (List.mem_cons_of_mem _ hd)) htail
      exact ⟨rfl, hrest⟩

theorem not_isScalarChar_of_isBlank (h : isBlank c = true) : isScalarChar c = false := by
  rcases isBlank_iff.mp h with rfl | rfl | rfl | rfl <;> decide

theorem isMark_iff :
    isMark c = true ↔ c = '{' ∨ c = '}' ∨ c = '[' ∨ c = ']' ∨ c = ':' ∨ c = ',' := by
  simp [isMark]

theorem not_isScalarChar_of_isMark (h : isMark c = true) : isScalarChar c = false := by
  rcases isMark_iff.mp h with rfl | rfl | rfl | rfl | rfl | rfl <;> decide

theorem not_isBlank_of_isMark (h : isMark c = true) : isBlank c = false := by
  rcases isMark_iff.mp h with rfl | rfl | rfl | rfl | rfl | rfl <;> decide

/-- A text begins with a character of a word only when its first token is a word. -/
theorem Lexes.not_isScalarChar (h : Lexes text tokens)
    (hword : ∀ token ∈ tokens.head?, token.isWord = false) :
    ∀ c ∈ text.head?, isScalarChar c = false := by
  cases h with
  | nil => exact fun _ hc => nomatch hc
  | blank hc _ =>
    rintro d hd
    obtain rfl := Option.some.inj hd
    exact not_isScalarChar_of_isBlank hc
  | mark hc _ =>
    rintro d hd
    obtain rfl := Option.some.inj hd
    exact not_isScalarChar_of_isMark hc
  | word _ _ _ _ => exact absurd (hword _ rfl) (by simp [Token.isWord])
  | string _ _ =>
    rintro d hd
    obtain rfl := Option.some.inj hd
    decide

/-- A text has one row of tokens. -/
theorem Lexes.unique (h : Lexes text tokens) (h' : Lexes text tokens') : tokens = tokens' := by
  -- the first character says which kind of token comes first
  induction h generalizing tokens' with
  | nil => cases h'; rfl
  | blank hc _ ih =>
    cases h' with
    | blank _ h' => exact ih h'
    | mark hc' _ => rw [not_isBlank_of_isMark hc'] at hc; exact nomatch hc
    | word hc' _ _ _ => rw [not_isScalarChar_of_isBlank hc] at hc'; exact nomatch hc'
    | string _ _ => exact absurd hc (by decide)
  | mark hc _ ih =>
    cases h' with
    | blank hc' _ => rw [not_isBlank_of_isMark hc] at hc'; exact nomatch hc'
    | mark _ h' => rw [ih h']
    | word hc' _ _ _ => rw [not_isScalarChar_of_isMark hc] at hc'; exact nomatch hc'
    | string _ _ => exact absurd hc (by decide)
  | @word c run text tokens hc hrun hlexes hword ih =>
    generalize htext : c :: (run ++ text) = whole at h'
    cases h' with
    | nil => exact nomatch htext
    | blank hc' _ =>
      obtain ⟨rfl, -⟩ := List.cons.inj htext
      rw [not_isScalarChar_of_isBlank hc'] at hc
      exact nomatch hc
    | mark hc' _ =>
      obtain ⟨rfl, -⟩ := List.cons.inj htext
      rw [not_isScalarChar_of_isMark hc'] at hc
      exact nomatch hc
    | word _ hrun' hlexes' hword' =>
      obtain ⟨rfl, htail⟩ := List.cons.inj htext
      obtain ⟨rfl, rfl⟩ := append_inj_of_span hrun hrun' (hlexes.not_isScalarChar hword)
        (hlexes'.not_isScalarChar hword') htail
      rw [ih hlexes']
    | string _ _ =>
      obtain ⟨rfl, -⟩ := List.cons.inj htext
      exact absurd hc (by decide)
  | @string body text tokens hbody _ ih =>
    generalize htext : '"' :: (body ++ '"' :: text) = whole at h'
    cases h' with
    | nil => exact nomatch htext
    | blank hc' _ =>
      obtain ⟨rfl, -⟩ := List.cons.inj htext
      exact absurd hc' (by decide)
    | mark hc' _ =>
      obtain ⟨rfl, -⟩ := List.cons.inj htext
      exact absurd hc' (by decide)
    | word hc' _ _ _ =>
      obtain ⟨rfl, -⟩ := List.cons.inj htext
      exact absurd hc' (by decide)
    | string hbody' h' =>
      obtain ⟨rfl, rfl⟩ := hbody.unique hbody' (List.cons.inj htext).2
      rw [ih h']

/-! ### White space -/

theorem Lexes.blank_append (hblank : Blank blank) (h : Lexes text tokens) :
    Lexes (blank ++ text) tokens := by
  induction blank with
  | nil => exact h
  | cons c blank ih =>
    exact .blank (hblank c (List.mem_cons_self ..))
      (ih fun d hd => hblank d (List.mem_cons_of_mem _ hd))

theorem Lexes.of_blank (hblank : Blank blank) : Lexes blank [] := by
  rw [← List.append_nil blank]
  exact .blank_append hblank .nil

theorem Lexes.append (h : Lexes front tokens) (hback : Lexes back rest)
    (hword : ∀ token ∈ rest.head?, token.isWord = false) :
    Lexes (front ++ back) (tokens ++ rest) := by
  induction h with
  | nil => exact hback
  | blank hc _ ih => exact .blank hc ih
  | mark hc _ ih => exact .mark hc ih
  | @word c run text tokens hc hrun hlexes hnext ih =>
    rw [List.cons_append, List.append_assoc]
    refine .word hc hrun ih fun token htoken => ?_
    cases tokens with
    | nil => exact hword token htoken
    | cons => exact hnext token htoken
  | string hbody _ ih =>
    rw [List.cons_append, List.append_assoc, List.cons_append]
    exact .string hbody ih

/-- The white space before a mark. -/
theorem Lexes.exists_of_mark_cons (h : Lexes text (.mark c :: rest)) :
    ∃ blank back, Blank blank ∧ text = blank ++ c :: back ∧ Lexes back rest := by
  generalize htokens : Token.mark c :: rest = tokens at h
  induction h with
  | nil => exact nomatch htokens
  | @blank d _ _ hd _ ih =>
    obtain ⟨blank, back, hblank, rfl, hback⟩ := ih htokens
    exact ⟨d :: blank, back, List.forall_mem_cons.mpr ⟨hd, hblank⟩, rfl, hback⟩
  | mark _ hlexes _ =>
    obtain ⟨hmark, rfl⟩ := List.cons.inj htokens
    obtain rfl := Token.mark.inj hmark
    exact ⟨[], _, (fun _ hd => nomatch hd), rfl, hlexes⟩
  | word _ _ _ _ _ => exact nomatch (List.cons.inj htokens).1
  | string _ _ _ => exact nomatch (List.cons.inj htokens).1

theorem Lexes.blank_of_nil (h : Lexes text []) : Blank text := by
  generalize htokens : ([] : List Token) = tokens at h
  induction h with
  | nil => exact fun _ hd => nomatch hd
  | blank hd _ ih => exact List.forall_mem_cons.mpr ⟨hd, ih htokens⟩
  | mark _ _ _ => exact nomatch htokens
  | word _ _ _ _ _ => exact nomatch htokens
  | string _ _ _ => exact nomatch htokens

/-- The white space behind a mark. -/
theorem Lexes.exists_of_append_mark (h : Lexes text (tokens ++ [.mark c])) :
    ∃ front blank, Blank blank ∧ text = front ++ c :: blank ∧ Lexes front tokens := by
  generalize hwhole : tokens ++ [Token.mark c] = whole at h
  induction h generalizing tokens with
  | nil => exact absurd hwhole (by simp)
  | @blank d _ _ hd _ ih =>
    obtain ⟨front, blank, hblank, rfl, hfront⟩ := ih hwhole
    exact ⟨d :: front, blank, hblank, rfl, .blank hd hfront⟩
  | @mark d text row hd hlexes ih =>
    cases tokens with
    | nil =>
      obtain ⟨hmark, rfl⟩ := List.cons.inj hwhole
      obtain rfl := Token.mark.inj hmark
      exact ⟨[], text, hlexes.blank_of_nil, rfl, .nil⟩
    | cons token tokens =>
      obtain ⟨rfl, htail⟩ := List.cons.inj hwhole
      obtain ⟨front, blank, hblank, rfl, hfront⟩ := ih htail
      exact ⟨d :: front, blank, hblank, rfl, .mark hd hfront⟩
  | @word d run text row hd hrun hlexes hnext ih =>
    cases tokens with
    | nil => exact nomatch (List.cons.inj hwhole).1
    | cons token tokens =>
      obtain ⟨rfl, htail⟩ := List.cons.inj hwhole
      obtain ⟨front, blank, hblank, rfl, hfront⟩ := ih htail
      refine ⟨d :: (run ++ front), blank, hblank, by simp, .word hd hrun hfront ?_⟩
      intro token htoken
      cases tokens with
      | nil => exact nomatch htoken
      | cons => exact hnext token (by rw [← htail]; exact htoken)
  | @string body text row hbody hlexes ih =>
    cases tokens with
    | nil => exact nomatch (List.cons.inj hwhole).1
    | cons token tokens =>
      obtain ⟨rfl, htail⟩ := List.cons.inj hwhole
      obtain ⟨front, blank, hblank, rfl, hfront⟩ := ih htail
      exact ⟨'"' :: (body ++ '"' :: front), blank, hblank, by simp, .string hbody hfront⟩

/-! ### Changes of single characters -/

/-- A change of the white space, which may change control characters and backslashes too. -/
structure Respaces (change : Char → List Char) : Prop where
  blank : ∀ c, isBlank c = true → Blank (change c)
  kept : ∀ c, 32 ≤ c.toNat → c ≠ '\\' → change c = [c]

def Token.respace (change : Char → List Char) : Token → Token
  | .string body => .string (body.flatMap change)
  | token => token

variable {change : Char → List Char}

theorem Respaces.flatMap_eq (hchange : Respaces change)
    (htext : ∀ c ∈ text, 32 ≤ c.toNat ∧ c ≠ '\\') : text.flatMap change = text := by
  induction text with
  | nil => rfl
  | cons c text ih =>
    obtain ⟨hc, hslash⟩ := htext c (List.mem_cons_self ..)
    rw [List.flatMap_cons, hchange.kept c hc hslash,
      ih fun d hd => htext d (List.mem_cons_of_mem _ hd)]
    rfl

theorem isScalarChar_kept (h : isScalarChar c = true) : 32 ≤ c.toNat ∧ c ≠ '\\' := by
  constructor
  · simp only [isScalarChar, Bool.or_eq_true, beq_iff_eq] at h
    rcases h with ((hscalar | rfl) | rfl) | rfl
    · have hrange := isAlphanum_range hscalar
      omega
    · decide
    · decide
    · decide
  · rintro rfl
    exact absurd h (by decide)

/-- Where the white space changes, the tokens stay but for the bodies of the strings. -/
theorem Lexes.respace (hchange : Respaces change) (h : Lexes text tokens)
    (hbody : ∀ body, .string body ∈ tokens → LiteralBody (body.flatMap change)) :
    Lexes (text.flatMap change) (tokens.map (Token.respace change)) := by
  induction h with
  | nil => exact .nil
  | @blank c _ _ hc _ ih =>
    rw [List.flatMap_cons]
    exact .blank_append (hchange.blank c hc) (ih hbody)
  | @mark c _ _ hc _ ih =>
    have hkept : 32 ≤ c.toNat ∧ c ≠ '\\' := by
      rcases isMark_iff.mp hc with rfl | rfl | rfl | rfl | rfl | rfl <;> decide
    rw [List.flatMap_cons, hchange.kept c hkept.1 hkept.2]
    exact .mark hc (ih fun body hmem => hbody body (List.mem_cons_of_mem _ hmem))
  | @word c run text tokens hc hrun _ hnext ih =>
    have hkept := isScalarChar_kept hc
    rw [List.flatMap_cons, List.flatMap_append, hchange.kept c hkept.1 hkept.2,
      hchange.flatMap_eq fun d hd => isScalarChar_kept (hrun d hd)]
    refine .word hc hrun (ih fun body hmem => hbody body (List.mem_cons_of_mem _ hmem)) ?_
    intro token htoken
    cases tokens with
    | nil => exact nomatch htoken
    | cons first tokens =>
      have hfirst := hnext first rfl
      obtain rfl := Option.some.inj htoken
      cases first with
      | word => exact hfirst
      | mark => rfl
      | string => rfl
  | @string body text tokens _ _ ih =>
    have hquote : change '"' = ['"'] := hchange.kept _ (by decide) (by decide)
    rw [List.flatMap_cons, List.flatMap_append, List.flatMap_cons, hquote]
    exact .string (hbody body (List.mem_cons_self ..))
      (ih fun body hmem => hbody body (List.mem_cons_of_mem _ hmem))

theorem map_respace_eq (h : ∀ body, .string body ∈ tokens → body.flatMap change = body) :
    tokens.map (Token.respace change) = tokens := by
  refine (List.map_congr_left ?_).trans (List.map_id tokens)
  intro token htoken
  cases token with
  | string body => exact congrArg Token.string (h body htoken)
  | mark => rfl
  | word => rfl

/-! ### Counting characters -/

/-- What is no white space stands in the tokens. -/
theorem Lexes.count_eq (h : Lexes text tokens) (hc : isBlank c = false) :
    text.count c = (tokens.flatMap Token.chars).count c := by
  induction h with
  | nil => rfl
  | @blank d _ _ hd _ ih =>
    have hne : d ≠ c := by rintro rfl; rw [hc] at hd; exact nomatch hd
    rw [List.count_cons_of_ne hne, ih]
  | mark _ _ ih =>
    rw [List.flatMap_cons, Token.chars, List.count_append, List.count_cons, ih, List.count_cons,
      List.count_nil]
    omega
  | @word d run text _ _ _ _ _ ih =>
    rw [List.flatMap_cons, Token.chars, ← List.cons_append, List.count_append, List.count_append,
      ih]
  | @string body text _ _ _ ih =>
    rw [← literal_append, List.flatMap_cons, Token.chars, List.count_append, List.count_append, ih]

theorem Lexes.mem_iff (h : Lexes text tokens) (hc : isBlank c = false) :
    c ∈ text ↔ ∃ token ∈ tokens, c ∈ token.chars := by
  rw [← List.count_pos_iff, h.count_eq hc, List.count_pos_iff, List.mem_flatMap]

theorem Lexes.length_le {body : List Char} (h : Lexes text tokens) (hmem : .string body ∈ tokens) :
    body.length ≤ text.length := by
  induction h with
  | nil => exact nomatch hmem
  | blank _ _ ih => exact (ih hmem).trans (Nat.le_succ _)
  | mark _ _ ih =>
    rcases List.mem_cons.mp hmem with h | hmem
    · exact nomatch h
    · exact (ih hmem).trans (Nat.le_succ _)
  | word _ _ _ _ ih =>
    rcases List.mem_cons.mp hmem with h | hmem
    · exact nomatch h
    · have hle := ih hmem
      rw [List.length_cons, List.length_append]
      omega
  | string _ _ ih =>
    rw [List.length_cons, List.length_append, List.length_cons]
    rcases List.mem_cons.mp hmem with h | hmem
    · obtain rfl := Token.string.inj h
      omega
    · have hle := ih hmem
      omega

theorem Lexes.literalBody {body : List Char} (h : Lexes text tokens)
    (hmem : .string body ∈ tokens) : LiteralBody body := by
  induction h with
  | nil => exact nomatch hmem
  | blank _ _ ih => exact ih hmem
  | mark _ _ ih => exact ih ((List.mem_cons.mp hmem).resolve_left fun h => nomatch h)
  | word _ _ _ _ ih => exact ih ((List.mem_cons.mp hmem).resolve_left fun h => nomatch h)
  | string hbody _ ih =>
    rcases List.mem_cons.mp hmem with h | hmem
    · obtain rfl := Token.string.inj h
      exact hbody
    · exact ih hmem

end GraphLoom.Foundation.JsonText
