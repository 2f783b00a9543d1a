import Mathlib.Data.Bool.AllAny
import Mathlib.Data.List.Infix

/-!
# String literals and braces

A string literal ends at the first quote that no backslash takes.  Any text is made of what stands
outside of literals and of literals, of which the last may be unclosed (`exists_segments`).

`Braced` says that the braces of a text are balanced outside of its literals, and `Closes n` that a
text ends with the brace that closes the outermost of `n` open ones.
-/

namespace GraphLoom.Foundation

/-- What stands between the quotes of a literal. -/
inductive LiteralBody : List Char → Prop
  | nil : LiteralBody []
  | plain {c : Char} {body : List Char} : c ≠ '"' → c ≠ '\\' → LiteralBody body →
      LiteralBody (c :: body)
  | escape {c : Char} {body : List Char} : LiteralBody body → LiteralBody ('\\' :: c :: body)

def literal (body : List Char) : List Char := '"' :: (body ++ ['"'])

variable {body text rest front inner : List Char} {c : Char} {n : ℕ}

theorem literal_append (body rest : List Char) :
    literal body ++ rest = '"' :: (body ++ '"' :: rest) := by
  simp [literal]

theorem LiteralBody.of_plain (h : ∀ c ∈ body, c ≠ '"' ∧ c ≠ '\\') : LiteralBody body := by
  induction body with
  | nil => exact .nil
  | cons c body ih =>
    obtain ⟨hquote, hslash⟩ := h c (List.mem_cons_self ..)
    exact .plain hquote hslash (ih fun d hd => h d (List.mem_cons_of_mem _ hd))

/-- A text behind an opening quote has its closing quote, or its literal is unclosed. -/
theorem literal_cases (text : List Char) :
    (∃ body rest, LiteralBody body ∧ text = body ++ '"' :: rest) ∨
      LiteralBody text ∨ ∃ body, LiteralBody body ∧ text = body ++ ['\\'] := by
  induction h : text.length using Nat.strong_induction_on generalizing text with
  | _ n ih =>
    subst h
    match text with
    | [] => exact .inr (.inl .nil)
    | c :: text =>
      by_cases hquote : c = '"'
      · exact .inl ⟨[], text, .nil, by rw [hquote]; rfl⟩
      by_cases hslash : c = '\\'
      · subst hslash
        match text with
        | [] => exact .inr (.inr ⟨[], .nil, rfl⟩)
        | d :: text =>
          rcases ih text.length (by rw [List.length_cons, List.length_cons]; omega) text rfl with
            ⟨body, rest, hbody, rfl⟩ | hbody | ⟨body, hbody, rfl⟩
          · exact .inl ⟨'\\' :: d :: body, rest, .escape hbody, rfl⟩
          · exact .inr (.inl (.escape hbody))
          · exact .inr (.inr ⟨'\\' :: d :: body, .escape hbody, rfl⟩)
      · rcases ih text.length (by simp) text rfl with
          ⟨body, rest, hbody, rfl⟩ | hbody | ⟨body, hbody, rfl⟩
        · exact .inl ⟨c :: body, rest, .plain hquote hslash hbody, rfl⟩
        · exact .inr (.inl (.plain hquote hslash hbody))
        · exact .inr (.inr ⟨c :: body, .plain hquote hslash hbody, rfl⟩)

/-! ### Segments -/

inductive Segment where
  | outside (text : List Char)
  | literal (text : List Char)
deriving DecidableEq, Repr

def Segment.chars : Segment → List Char
  | .outside text => text
  | .literal text => text

/-- What a text is made of. -/
inductive Segments : List Char → List Segment → Prop
  | outside {text : List Char} : '"' ∉ text → Segments text [.outside text]
  | closed {text body rest : List Char} {segments : List Segment} : '"' ∉ text → LiteralBody body →
      Segments rest segments →
      Segments (text ++ (literal body ++ rest))
        (.outside text :: .literal (literal body) :: segments)
  | unclosed {text body : List Char} : '"' ∉ text → LiteralBody body →
      Segments (text ++ '"' :: body) [.outside text, .literal ('"' :: body)]
  | escaping {text body : List Char} : '"' ∉ text → LiteralBody body →
      Segments (text ++ '"' :: (body ++ ['\\'])) [.outside text, .literal ('"' :: (body ++ ['\\']))]

variable {segments : List Segment}

theorem Segments.flatMap_chars (h : Segments text segments) :
    segments.flatMap Segment.chars = text := by
  induction h with
  | outside => simp [Segment.chars]
  | closed _ _ _ ih =>
    rw [List.flatMap_cons, List.flatMap_cons, ih]
    rfl
  | unclosed => simp [Segment.chars]
  | escaping => simp [Segment.chars]

theorem Segments.cons (hc : c ≠ '"') (h : Segments text (.outside front :: segments)) :
    Segments (c :: text) (.outside (c :: front) :: segments) := by
  have hmem {text : List Char} (htext : '"' ∉ text) : '"' ∉ c :: text := by
    simpa [hc.symm] using htext
  cases h with
  | outside hquote => exact .outside (hmem hquote)
  | closed hquote hbody hrest => exact .closed (hmem hquote) hbody hrest
  | unclosed hquote hbody => exact .unclosed (hmem hquote) hbody
  | escaping hquote hbody => exact .escaping (hmem hquote) hbody

theorem exists_segments (text : List Char) : ∃ segments, Segments text segments := by
  induction h : text.length using Nat.strong_induction_on generalizing text with
  | _ n ih =>
    subst h
    by_cases hquote : '"' ∈ text
    · obtain ⟨front, tail, rfl, hfront⟩ := List.eq_append_cons_of_mem hquote
      rcases literal_cases tail with ⟨body, rest, hbody, rfl⟩ | hbody | ⟨body, hbody, rfl⟩
      · obtain ⟨segments, hsegments⟩ := ih rest.length (by simp; omega) rest rfl
        rw [← literal_append]
        exact ⟨_, .closed hfront hbody hsegments⟩
      · exact ⟨_, .unclosed hfront hbody⟩
      · exact ⟨_, .escaping hfront hbody⟩
    · exact ⟨_, .outside hquote⟩

/-- No quote closes a literal before its end. -/
theorem LiteralBody.ne_append_quote {tail : List Char} (h : LiteralBody body)
    (htail : tail = [] ∨ tail = ['\\']) (hfront : LiteralBody front) :
    body ++ tail ≠ front ++ '"' :: rest := by
  induction h generalizing front with
  | nil =>
    rcases htail with rfl | rfl
    · simp
    · cases hfront with
      | nil => simp
      | plain _ hslash _ => simp [hslash.symm]
      | escape _ => simp
  | plain hquote hslash _ ih =>
    cases hfront with
    | nil => simp [hquote]
    | plain _ _ hbody => simpa using fun _ => ih hbody
    | escape _ => simp [hslash]
  | escape _ ih =>
    cases hfront with
    | nil => simp
    | plain _ hslash _ => simp [hslash.symm]
    | escape hbody => simpa using fun _ => ih hbody

/-- The first quote that closes a literal is its end. -/
theorem LiteralBody.unique {front' rest' : List Char} (h : LiteralBody front)
    (h' : LiteralBody front') (heq : front ++ '"' :: rest = front' ++ '"' :: rest') :
    front = front' ∧ rest = rest' := by
  induction h generalizing front' with
  | nil =>
    cases h' with
    | nil => exact ⟨rfl, (List.cons.inj heq).2⟩
    | plain hquote _ _ => exact absurd (List.cons.inj heq).1.symm hquote
    | escape _ => exact absurd (List.cons.inj heq).1 (by decide)
  | plain hquote hslash _ ih =>
    cases h' with
    | nil => exact absurd (List.cons.inj heq).1 hquote
    | plain _ _ hbody =>
      obtain ⟨rfl, htail⟩ := List.cons.inj heq
      obtain ⟨rfl, hrest⟩ := ih hbody htail
      exact ⟨rfl, hrest⟩
    | escape _ => exact absurd (List.cons.inj heq).1 hslash
  | escape _ ih =>
    cases h' with
    | nil => exact absurd (List.cons.inj heq).1 (by decide)
    | plain _ hslash _ => exact absurd (List.cons.inj heq).1.symm hslash
    | escape hbody =>
      obtain ⟨rfl, htail⟩ := List.cons.inj (List.cons.inj heq).2
      obtain ⟨rfl, hrest⟩ := ih hbody htail
      exact ⟨rfl, hrest⟩

/-- What stands before the first quote. -/
theorem append_quote_inj {text' rest' : List Char} (h : '"' ∉ text) (h' : '"' ∉ text')
    (heq : text ++ '"' :: rest = text' ++ '"' :: rest') : text = text' ∧ rest = rest' := by
  induction text generalizing text' with
  | nil =>
    cases text' with
    | nil => exact ⟨rfl, (List.cons.inj heq).2⟩
    | cons c text' =>
      obtain ⟨rfl, -⟩ := List.cons.inj heq
      exact absurd (List.mem_cons_self ..) h'
  | cons c text ih =>
    cases text' with
    | nil =>
      obtain ⟨rfl, -⟩ := List.cons.inj heq
      exact absurd (List.mem_cons_self ..) h
    | cons d text' =>
      obtain ⟨rfl, htail⟩ := List.cons.inj heq
      obtain ⟨rfl, hrest⟩ := ih (fun hmem => h (List.mem_cons_of_mem _ hmem))
        (fun hmem => h' (List.mem_cons_of_mem _ hmem)) htail
      exact ⟨rfl, hrest⟩

theorem quote_mem_append {tail : List Char} : '"' ∈ front ++ '"' :: tail :=
  List.mem_append_right _ (List.mem_cons_self ..)

/-- A text is made of its segments in one way. -/
theorem Segments.unique {segments segments' : List Segment} (h : Segments text segments)
    (h' : Segments text segments') : segments = segments' := by
  induction h generalizing segments' with
  | @outside text hquote =>
    generalize hwhole : text = whole at h'
    cases h' with
    | outside => rfl
    | closed =>
      rw [literal_append] at hwhole
      exact absurd (hwhole ▸ quote_mem_append) hquote
    | unclosed => exact absurd (hwhole ▸ quote_mem_append) hquote
    | escaping => exact absurd (hwhole ▸ quote_mem_append) hquote
  | @closed text body rest segments hquote hbody _ ih =>
    generalize hwhole : text ++ (literal body ++ rest) = whole at h'
    rw [literal_append] at hwhole
    cases h' with
    | outside hquote' => exact absurd (hwhole ▸ quote_mem_append) hquote'
    | closed hquote' hbody' hrest' =>
      rw [literal_append] at hwhole
      obtain ⟨rfl, htail⟩ := append_quote_inj hquote hquote' hwhole
      obtain ⟨rfl, rfl⟩ := hbody.unique hbody' htail
      rw [ih hrest']
    | @unclosed _ body' hquote' hbody' =>
      obtain ⟨-, htail⟩ := append_quote_inj hquote hquote' hwhole
      exact absurd (by rw [List.append_nil, htail]) (hbody'.ne_append_quote (.inl rfl) hbody)
    | escaping hquote' hbody' =>
      obtain ⟨-, htail⟩ := append_quote_inj hquote hquote' hwhole
      exact absurd htail.symm (hbody'.ne_append_quote (.inr rfl) hbody)
  | @unclosed text body hquote hbody =>
    generalize hwhole : text ++ '"' :: body = whole at h'
    cases h' with
    | outside hquote' => exact absurd (hwhole ▸ quote_mem_append) hquote'
    | closed hquote' hbody' =>
      rw [literal_append] at hwhole
      obtain ⟨-, htail⟩ := append_quote_inj hquote hquote' hwhole
      exact absurd (by rw [List.append_nil, htail]) (hbody.ne_append_quote (.inl rfl) hbody')
    | unclosed hquote' =>
      obtain ⟨rfl, rfl⟩ := append_quote_inj hquote hquote' hwhole
      rfl
    | escaping hquote' =>
      obtain ⟨rfl, rfl⟩ := append_quote_inj hquote hquote' hwhole
      rfl
  | @escaping text body hquote hbody =>
    generalize hwhole : text ++ '"' :: (body ++ ['\\']) = whole at h'
    cases h' with
    | outside hquote' => exact absurd (hwhole ▸ quote_mem_append) hquote'
    | closed hquote' hbody' =>
      rw [literal_append] at hwhole
      obtain ⟨-, htail⟩ := append_quote_inj hquote hquote' hwhole
      exact absurd htail (hbody.ne_append_quote (.inr rfl) hbody')
    | unclosed hquote' =>
      obtain ⟨rfl, rfl⟩ := append_quote_inj hquote hquote' hwhole
      rfl
    | escaping hquote' =>
      obtain ⟨rfl, htail⟩ := append_quote_inj hquote hquote' hwhole
      rw [htail]

/-- A text whose literals are closed. -/
inductive ClosedText : List Char → Prop
  | nil : ClosedText []
  | plain {c : Char} {rest : List Char} : c ≠ '"' → ClosedText rest → ClosedText (c :: rest)
  | quoted {body rest : List Char} : LiteralBody body → ClosedText rest →
      ClosedText (literal body ++ rest)

/-- The literals of a text are kept as literals, in their order; the text between them may have
changed. -/
inductive Kept : List Segment → List Char → Prop
  | nil : Kept [] []
  | outside {text new after : List Char} {segments : List Segment} : ClosedText new →
      Kept segments after → Kept (.outside text :: segments) (new ++ after)
  | literal {text after : List Char} {segments : List Segment} : Kept segments after →
      Kept (.literal text :: segments) (text ++ after)

theorem ClosedText.plain_append (h : '"' ∉ text) (hrest : ClosedText rest) :
    ClosedText (text ++ rest) := by
  induction text with
  | nil => exact hrest
  | cons c text ih =>
    apply ClosedText.plain
    · rintro rfl
      exact h (List.mem_cons_self ..)
    · exact ih fun hmem => h (List.mem_cons_of_mem c hmem)

theorem Kept.occurs {after : List Char} (h : Kept segments after)
    (hmem : .literal text ∈ segments) : text <:+: after := by
  induction h with
  | nil => exact nomatch hmem
  | outside _ _ ih =>
    rcases List.mem_cons.mp hmem with heq | htail
    · exact nomatch heq
    · exact (ih htail).trans (List.suffix_append ..).isInfix
  | literal _ ih =>
    rcases List.mem_cons.mp hmem with heq | htail
    · obtain rfl := Segment.literal.inj heq
      exact (List.prefix_append ..).isInfix
    · exact (ih htail).trans (List.suffix_append ..).isInfix

/-! ### Braces -/

/-- The braces outside of literals are balanced. -/
inductive Braced : List Char → Prop
  | nil : Braced []
  | plain {c : Char} {rest : List Char} : c ≠ '"' → c ≠ '{' → c ≠ '}' → Braced rest →
      Braced (c :: rest)
  | quoted {body rest : List Char} : LiteralBody body → Braced rest → Braced (literal body ++ rest)
  | group {inner rest : List Char} : Braced inner → Braced rest →
      Braced ('{' :: (inner ++ '}' :: rest))

/-- A text in braces, of which the last closes the first. -/
def Group (text : List Char) : Prop := ∃ inner, Braced inner ∧ text = '{' :: (inner ++ ['}'])

theorem Braced.append {front back : List Char} (hfront : Braced front) (hback : Braced back) :
    Braced (front ++ back) := by
  induction hfront with
  | nil => exact hback
  | plain hquote hopen hclose _ ih => exact .plain hquote hopen hclose ih
  | quoted hbody _ ih =>
    rw [List.append_assoc]
    exact .quoted hbody ih
  | group hinner _ _ ih =>
    rw [List.cons_append, List.append_assoc, List.cons_append]
    exact .group hinner ih

theorem Braced.of_plain (h : ∀ c ∈ text, c ≠ '"' ∧ c ≠ '{' ∧ c ≠ '}') : Braced text := by
  induction text with
  | nil => exact .nil
  | cons c text ih =>
    obtain ⟨hquote, hopen, hclose⟩ := h c (List.mem_cons_self ..)
    exact .plain hquote hopen hclose (ih fun d hd => h d (List.mem_cons_of_mem _ hd))

theorem Braced.of_literal (hbody : LiteralBody body) : Braced (literal body) := by
  rw [← List.append_nil (literal body)]
  exact .quoted hbody .nil

/-- The text ends with the brace that closes the outermost of some open ones. -/
inductive Closes : ℕ → List Char → Prop
  | last {inner : List Char} : Braced inner → Closes 1 (inner ++ ['}'])
  | next {inner rest : List Char} {n : ℕ} : Braced inner → Closes (n + 1) rest →
      Closes (n + 2) (inner ++ '}' :: rest)

namespace Closes

theorem append (hfront : Braced front) (h : Closes n rest) : Closes n (front ++ rest) := by
  cases h with
  | last hinner =>
    rw [← List.append_assoc]
    exact .last (hfront.append hinner)
  | next hinner hrest =>
    rw [← List.append_assoc]
    exact .next (hfront.append hinner) hrest

theorem plain (hquote : c ≠ '"') (hopen : c ≠ '{') (hclose : c ≠ '}') (h : Closes n rest) :
    Closes n (c :: rest) :=
  h.append (.plain hquote hopen hclose .nil)

theorem closed (h : Closes (n + 1) rest) : Closes (n + 2) ('}' :: rest) := .next .nil h

/-- A brace that is opened is closed before those that are open. -/
theorem opened (h : Closes (n + 2) rest) : Closes (n + 1) ('{' :: rest) := by
  cases h with
  | @next inner rest _ hinner hrest =>
    have hgroup : Braced ('{' :: (inner ++ ['}'])) := .group hinner .nil
    have heq : '{' :: (inner ++ '}' :: rest) = ('{' :: (inner ++ ['}'])) ++ rest := by simp
    rw [heq]
    exact hrest.append hgroup

theorem group (h : Closes 1 rest) : Group ('{' :: rest) := by
  cases h with
  | last hinner => exact ⟨_, hinner, rfl⟩

end Closes

end GraphLoom.Foundation
