import GraphLoom.Foundation.PythonFormat
import GraphLoom.Prompts.Repository
import Mathlib.Algebra.Group.Nat.Even

/-!
# Format strings with simple fields

A format string of the kind that prompts use is a list of pieces: characters, doubled braces and
simple fields, in any order.  `source` is its text, `render` what it prints and `convertPieces` the
template of the engine that stands for it.

* `strFormat_source`: Python prints a list of pieces as `render` says.
* `normalizePythonNewlines_source`, `normalizePythonNewlines_convertPieces`: newlines may be
  normalised before or after the conversion.

The newlines of a prompt are normalised after its conversion.  It makes no difference: the converted
text of a list of pieces with normalised newlines is the normalised converted text
(`normalizePythonNewlines_convertPieces`).
-/

namespace GraphLoom.Prompts

variable {name : List Char} {piece : Piece}

section Pieces

open GraphLoom.Foundation GraphLoom.Foundation.PythonFormat

/-- A character that is no brace, a doubled brace or a simple field. -/
inductive Piece where
  | text (c : Char) (h : c ≠ '{' ∧ c ≠ '}')
  | openBrace
  | closeBrace
  | field (name : List Char) (h : isSimpleFormatField name = true)
deriving DecidableEq

namespace Piece

def source : Piece → List Char
  | text c _ => [c]
  | openBrace => ['{', '{']
  | closeBrace => ['}', '}']
  | field name _ => '{' :: (name ++ ['}'])

def render (context : Context) : Piece → Option (List Char)
  | text c _ => some [c]
  | openBrace => some ['{']
  | closeBrace => some ['}']
  | field name _ => context (String.ofList name)

def chunk : Piece → Chunk
  | text c _ => .literal c
  | openBrace => .literal '{'
  | closeBrace => .literal '}'
  | field name _ => .field (.simple name)

/-- The template of a piece that stands alone. -/
def converted : Piece → List Char
  | text c _ => [c]
  | openBrace => ['{']
  | closeBrace => ['}']
  | field name _ => variableTag name

/-- The character that would make a tag of the brace before it. -/
def mark : Piece → Option Char
  | text c _ => if c = '%' ∨ c = '#' then some c else none
  | openBrace => some '{'
  | closeBrace | field _ _ => none

/-- The piece that prints a character. -/
def ofChar (c : Char) : Piece :=
  if hopen : c = '{' then openBrace
  else if hclose : c = '}' then closeBrace
  else text c ⟨hopen, hclose⟩

def isOpen : Piece → Bool
  | openBrace => true
  | _ => false

end Piece

def source (pieces : List Piece) : List Char := pieces.flatMap Piece.source

def render (context : Context) : List Piece → Option (List Char)
  | [] => some []
  | piece :: pieces => do return (← piece.render context) ++ (← render context pieces)

/-- The template of a list of pieces. -/
def convertPieces : List Piece → List Char
  | [] => []
  | [piece] => piece.converted
  | piece :: next :: pieces =>
    match piece, next.mark with
    | .openBrace, some c => stringTag ['{', c] ++ convertPieces pieces
    | piece, _ => piece.converted ++ convertPieces (next :: pieces)

/-- How many doubled opening braces stand at the end. -/
def openBracesAtEnd (pieces : List Piece) : ℕ := (pieces.reverse.takeWhile Piece.isOpen).length

/-- No field is directly preceded by an odd number of doubled opening braces. -/
def FieldsClear (pieces : List Piece) : Prop :=
  ∀ before name h after, pieces = before ++ .field name h :: after → Even (openBracesAtEnd before)

/-- One of the pieces is a field that the kind knows. -/
def HasKnownPiece (kind : PromptKind) (pieces : List Piece) : Prop :=
  ∃ name h, Piece.field name h ∈ pieces ∧ String.ofList name ∈ kind.variableNames

/-! ### Equations -/

@[simp] theorem source_nil : source [] = [] := rfl

@[simp]
theorem source_cons (piece : Piece) (pieces : List Piece) :
    source (piece :: pieces) = piece.source ++ source pieces := rfl

theorem source_append (pieces pieces' : List Piece) :
    source (pieces ++ pieces') = source pieces ++ source pieces' :=
  List.flatMap_append

theorem Piece.ofChar_text {c : Char} (h : c ≠ '{' ∧ c ≠ '}') : ofChar c = text c h := by
  rw [ofChar, dif_neg h.1, dif_neg h.2]

@[simp]
theorem convertPieces_mark (next : Piece) (pieces : List Piece) {c : Char}
    (h : next.mark = some c) :
    convertPieces (.openBrace :: next :: pieces) = stringTag ['{', c] ++ convertPieces pieces := by
  conv_lhs => unfold convertPieces
  rw [h]

theorem convertPieces_cons {pieces : List Piece}
    (h : piece = .openBrace → ∀ next ∈ pieces.head?, next.mark = none) :
    convertPieces (piece :: pieces) = piece.converted ++ convertPieces pieces := by
  cases pieces with
  | nil => rw [convertPieces, convertPieces, List.append_nil]
  | cons next pieces =>
    conv_lhs => unfold convertPieces
    cases piece with
    | openBrace =>
      have hnext : next.mark = none := h rfl next rfl
      rw [hnext]
    | text c h | closeBrace | field name h => rfl

theorem convertPieces_cons_of_ne (h : piece ≠ .openBrace) (pieces : List Piece) :
    convertPieces (piece :: pieces) = piece.converted ++ convertPieces pieces :=
  convertPieces_cons fun hopen => absurd hopen h

/-- Induction that follows `convertPieces`: an opening brace that would make a tag with the next
piece goes with it, every other piece goes alone. -/
theorem convertPieces_induction {motive : List Piece → Prop} (nil : motive [])
    (mark : ∀ next c pieces, next.mark = some c → motive pieces →
      motive (.openBrace :: next :: pieces))
    (cons : ∀ piece pieces, (piece = .openBrace → ∀ next ∈ pieces.head?, next.mark = none) →
      motive pieces → motive (piece :: pieces)) (pieces : List Piece) : motive pieces := by
  induction hlength : pieces.length using Nat.strong_induction_on generalizing pieces with
  | _ n ih =>
  rcases pieces with - | ⟨piece, pieces⟩
  · exact nil
  · rw [List.length_cons] at hlength
    by_cases h : piece = .openBrace → ∀ next ∈ pieces.head?, next.mark = none
    · exact cons piece pieces h (ih pieces.length (by omega) pieces rfl)
    · push Not at h
      obtain ⟨rfl, next, hnext, hmark⟩ := h
      obtain ⟨pieces, rfl⟩ : ∃ tail, pieces = next :: tail := by
        cases pieces with
        | nil => simp at hnext
        | cons piece tail => exact ⟨tail, by rw [Option.some.inj hnext]⟩
      obtain ⟨c, hc⟩ := Option.ne_none_iff_exists'.mp hmark
      rw [List.length_cons] at hlength
      exact mark next c pieces hc (ih pieces.length (by omega) pieces rfl)

/-! ### Python prints a list of pieces -/

theorem isSimpleFormatField_no_brace (h : isSimpleFormatField name = true)
    {c : Char} (hc : c ∈ name) : c.isAlphanum = true ∨ c = '_' := by
  cases name with
  | nil => simp at hc
  | cons d name =>
    simp only [isSimpleFormatField, Bool.and_eq_true, Bool.or_eq_true, beq_iff_eq,
      List.all_eq_true] at h
    rcases List.mem_cons.mp hc with rfl | hc
    · exact h.1.imp (fun halpha => by simp [Char.isAlphanum, halpha]) id
    · exact h.2 c hc

/-- The characters of an identifier are none of those that structure a field. -/
theorem isSimpleFormatField_ne (h : isSimpleFormatField name = true)
    {c d : Char} (hc : c ∈ name) (hd : d.isAlphanum = false ∧ d ≠ '_') : c ≠ d := by
  rintro rfl
  rcases isSimpleFormatField_no_brace h hc with halpha | hunderscore
  · rw [hd.1] at halpha
    exact Bool.false_ne_true halpha
  · exact hd.2 hunderscore

theorem fieldName_simple {name : List Char}
    (h : ∀ c ∈ name, c ≠ '{' ∧ c ≠ '}' ∧ c ≠ ':' ∧ c ≠ '!' ∧ c ≠ '[') (rest : List Char) :
    fieldName false (name ++ '}' :: rest) = .ok (name, '}', rest) := by
  induction name with
  | nil => simp [fieldName]
  | cons c name ih =>
    obtain ⟨hopen, hclose, hcolon, hbang, hbracket⟩ := h c (List.mem_cons_self ..)
    have hindex : (c == '[') = false := beq_eq_false_iff_ne.mpr hbracket
    rw [List.cons_append, fieldName, if_neg Bool.false_ne_true, if_neg hopen,
      if_neg (by simp [hclose, hcolon, hbang]), hindex,
      ih fun d hd => h d (List.mem_cons_of_mem c hd)]
    rfl

theorem parseField_simple (h : isSimpleFormatField name = true)
    (rest : List Char) : parseField (name ++ '}' :: rest) = .ok (.simple name, rest) := by
  have hname : fieldName false (name ++ '}' :: rest) = .ok (name, '}', rest) :=
    fieldName_simple (fun c hc => ⟨isSimpleFormatField_ne h hc (by decide),
      isSimpleFormatField_ne h hc (by decide), isSimpleFormatField_ne h hc (by decide),
      isSimpleFormatField_ne h hc (by decide), isSimpleFormatField_ne h hc (by decide)⟩) rest
  rw [parseField, hname]
  show afterFieldName name '}' rest = _
  unfold afterFieldName
  rw [if_pos rfl]

theorem head?_simple_ne (h : isSimpleFormatField name = true) (rest : List Char) :
    ∃ c tail, name ++ rest = c :: tail ∧ c ≠ '{' := by
  cases name with
  | nil => simp [isSimpleFormatField] at h
  | cons c name =>
    exact ⟨c, name ++ rest, rfl, isSimpleFormatField_ne h (List.mem_cons_self ..) (by decide)⟩

theorem parse_source (pieces : List Piece) : parse (source pieces) = .ok (pieces.map Piece.chunk) := by
  induction pieces with
  | nil => rw [source_nil, parse]; rfl
  | cons piece pieces ih =>
    rw [source_cons, List.map_cons]
    cases piece with
    | text c h =>
      show parse (c :: source pieces) = _
      rw [parse, if_neg h.1, if_neg h.2, ih]
      rfl
    | openBrace =>
      show parse ('{' :: '{' :: source pieces) = _
      rw [parse, if_pos rfl, if_neg (List.cons_ne_nil _ _), List.head?_cons, if_pos rfl,
        List.tail_cons, ih]
      rfl
    | closeBrace =>
      show parse ('}' :: '}' :: source pieces) = _
      rw [parse, if_neg (by decide), if_pos rfl, List.head?_cons, if_pos rfl, List.tail_cons, ih]
      rfl
    | field name h =>
      have hsource : (Piece.field name h).source ++ source pieces =
          '{' :: (name ++ '}' :: source pieces) := by
        simp [Piece.source]
      obtain ⟨c, tail, htail, hc⟩ := head?_simple_ne h ('}' :: source pieces)
      have hhead : (name ++ '}' :: source pieces).head? ≠ some '{' := by
        rw [htail]
        exact fun hc' => hc (Option.some.inj hc')
      rw [hsource, parse, if_pos rfl, if_neg (by simp), if_neg hhead, parseField_simple h]
      dsimp only
      rw [ih]
      rfl

/-- The values that the arguments of a format string have for simple fields. -/
def contextOf (arguments : ReplacementField → Option (List Char)) : Context :=
  fun name => arguments (.simple name.toList)

theorem mapM_chunk (arguments : ReplacementField → Option (List Char)) 
    (build : List Char → Except FormatError (List Char)) (pieces : List Piece) :
    (∃ texts, (pieces.map Piece.chunk).mapM (chunkText arguments build) = .ok texts ∧
      render (contextOf arguments) pieces = some texts.flatten) ∨
    ((pieces.map Piece.chunk).mapM (chunkText arguments build) = .error .missingArgument ∧
      render (contextOf arguments) pieces = none) := by
  induction pieces with
  | nil => exact Or.inl ⟨[], rfl, rfl⟩
  | cons piece pieces ih =>
    have hpiece : chunkText arguments build piece.chunk =
        (piece.render (contextOf arguments)).elim (.error .missingArgument) .ok := by
      cases piece with
      | text c h | openBrace | closeBrace => rfl
      | field name h =>
        rw [Piece.render, contextOf, String.toList_ofList, ReplacementField.simple]
        cases hvalue : arguments ⟨name, none, []⟩ with
        | none => simp [Piece.chunk, chunkText, ReplacementField.simple, hvalue, bind, Except.bind]
        | some text =>
          simp [Piece.chunk, chunkText, ReplacementField.simple, hvalue, bind, Except.bind]
    rw [List.map_cons, List.mapM_cons, hpiece, render]
    cases piece.render (contextOf arguments) with
    | none => exact Or.inr ⟨rfl, rfl⟩
    | some text =>
      rcases ih with ⟨texts, hmap, hrender⟩ | ⟨hmap, hrender⟩
      · rw [hmap, hrender]
        exact Or.inl ⟨text :: texts, rfl, rfl⟩
      · rw [hmap, hrender]
        exact Or.inr ⟨rfl, rfl⟩

/-- Python prints a list of pieces as `render` does, and misses an argument where `render` does. -/
theorem strFormat_source (arguments : ReplacementField → Option (List Char))
    (pieces : List Piece) :
    strFormat arguments (source pieces) =
      match render (contextOf arguments) pieces with
      | some text => .ok text
      | none => .error .missingArgument := by
  unfold strFormat
  rw [buildString, parse_source]
  show ((pieces.map Piece.chunk).mapM (chunkText arguments (buildString arguments 1)) >>=
    fun texts => Except.ok texts.flatten) = _
  rcases mapM_chunk arguments (buildString arguments 1) pieces with
    ⟨texts, hmap, hrender⟩ | ⟨hmap, hrender⟩
  · rw [hmap, hrender]
    rfl
  · rw [hmap, hrender]
    rfl

end Pieces

/-! ## Newlines of prompts -/

section Newlines

open GraphLoom.Foundation

/-! ### One pass over the text -/

/-- A carriage return goes before a line feed, and is one elsewhere. -/
def newlines : List Char → List Char
  | [] => []
  | c :: rest =>
    if c = '\r' then
      if rest.head? = some '\n' then newlines rest else '\n' :: newlines rest
    else c :: newlines rest

theorem newlines_cons {c : Char} (h : c ≠ '\r') (rest : List Char) :
    newlines (c :: rest) = c :: newlines rest := by
  rw [newlines, if_neg h]

theorem newlines_append {front : List Char} (h : '\r' ∉ front) (rest : List Char) :
    newlines (front ++ rest) = front ++ newlines rest := by
  induction front with
  | nil => rfl
  | cons c front ih =>
    rw [List.mem_cons, not_or] at h
    rw [List.cons_append, newlines_cons (Ne.symm h.1), ih h.2, List.cons_append]

theorem replace_newlines (text : List Char) :
    replace ['\r'] ['\n'] (replace ['\r', '\n'] ['\n'] text) = newlines text := by
  have hsingle : ∀ {c : Char}, c ≠ '\r' → ∀ text : List Char,
      replace ['\r'] ['\n'] (c :: text) = c :: replace ['\r'] ['\n'] text := by
    intro c hc text
    rw [replace_singleton, replace_singleton, List.flatMap_cons, if_neg hc]
    rfl
  induction hlength : text.length using Nat.strong_induction_on generalizing text with
  | _ n ih =>
  rcases text with - | ⟨c, text⟩
  · rfl
  · rw [List.length_cons] at hlength
    have hrest := ih text.length (by omega) text rfl
    by_cases hc : c = '\r'
    · subst hc
      rw [newlines, if_pos rfl]
      split_ifs with hhead
      · obtain ⟨text, rfl⟩ : ∃ rest, text = '\n' :: rest := List.head?_eq_some_iff.mp hhead
        rw [List.length_cons] at hlength
        rw [replace_pair_self, newlines_cons (by decide), ← ih text.length (by omega) text rfl]
        exact hsingle (by decide) _
      · rw [replace_pair_cons_of_head_ne hhead, ← hrest]
        exact replace_append_self (List.cons_ne_nil '\r' []) _ _
    · rw [newlines_cons hc, replace_pair_cons_of_ne hc, hsingle hc, hrest]

theorem normalizePythonNewlines_eq (content : List Char) :
    normalizePythonNewlines content = newlines content := by
  unfold normalizePythonNewlines
  split_ifs with h
  · exact replace_newlines content
  · have := newlines_append h []
    rw [List.append_nil] at this
    rw [this, newlines, List.append_nil]

/-! ### The pieces of the normalised text -/

def Piece.isChar (d : Char) : Piece → Bool
  | text c _ => c == d
  | _ => false

def Piece.lineFeed : Piece := .text '\n' (by decide)

/-- `newlines` on pieces. -/
def newlinePieces : List Piece → List Piece
  | [] => []
  | piece :: pieces =>
    if piece.isChar '\r' then
      if pieces.head?.any (Piece.isChar '\n') then newlinePieces pieces
      else .lineFeed :: newlinePieces pieces
    else piece :: newlinePieces pieces

theorem Piece.isChar_iff {d : Char} : piece.isChar d = true ↔ ∃ h, piece = .text d h := by
  cases piece with
  | text c h =>
    rw [isChar, beq_iff_eq]
    constructor
    · rintro rfl
      exact ⟨h, rfl⟩
    · rintro ⟨_, hpiece⟩
      exact (Piece.text.inj hpiece)
  | openBrace | closeBrace | field name h => simp [isChar]

theorem isSimpleFormatField_no_return (h : isSimpleFormatField name = true) : '\r' ∉ name :=
  fun hmem => isSimpleFormatField_ne h hmem (d := '\r') (by decide) rfl

theorem Piece.no_return_source (h : piece.isChar '\r' = false) : '\r' ∉ piece.source := by
  cases piece with
  | text c hc =>
    rw [isChar, beq_eq_false_iff_ne] at h
    rw [source, List.mem_singleton]
    exact Ne.symm h
  | openBrace | closeBrace => decide
  | field name hname =>
    have := isSimpleFormatField_no_return hname
    simp [source, this]

theorem Piece.no_return_converted (h : piece.isChar '\r' = false) : '\r' ∉ piece.converted := by
  cases piece with
  | text c hc =>
    rw [isChar, beq_eq_false_iff_ne] at h
    rw [converted, List.mem_singleton]
    exact Ne.symm h
  | openBrace | closeBrace => decide
  | field name hname =>
    have := isSimpleFormatField_no_return hname
    simp [converted, variableTag, this]

/-- The text of a list of pieces begins with a line feed when the list does. -/
theorem head?_source_eq_lineFeed (pieces : List Piece) :
    (source pieces).head? = some '\n' ↔ pieces.head?.any (Piece.isChar '\n') = true := by
  cases pieces with
  | nil => simp
  | cons piece pieces =>
    cases piece with
    | text c h => simp [Piece.source, Piece.isChar]
    | openBrace | closeBrace | field name h => simp [Piece.source, Piece.isChar]

theorem head?_convertPieces_eq_lineFeed (pieces : List Piece) :
    (convertPieces pieces).head? = some '\n' ↔
      pieces.head?.any (Piece.isChar '\n') = true := by
  induction pieces using convertPieces_induction with
  | nil => simp [convertPieces]
  | mark next c pieces hmark =>
    rw [convertPieces_mark next pieces hmark]
    simp [stringTag, Piece.isChar]
  | cons piece pieces h =>
    rw [convertPieces_cons h]
    cases piece with
    | text c h => simp [Piece.converted, Piece.isChar]
    | openBrace | closeBrace | field name h => simp [Piece.converted, Piece.isChar, variableTag]

/-- Normalising keeps the front of the list, or puts a line feed there. -/
theorem mark_newlinePieces {pieces : List Piece}
    (h : ∀ next ∈ pieces.head?, next.mark = none) :
    ∀ next ∈ (newlinePieces pieces).head?, next.mark = none := by
  induction pieces with
  | nil => exact h
  | cons piece pieces ih =>
    rw [newlinePieces]
    split_ifs with hreturn hfeed
    · refine ih fun next hnext => ?_
      rw [Option.mem_def] at hnext
      rw [hnext, Option.any_some] at hfeed
      obtain ⟨hc, rfl⟩ := Piece.isChar_iff.mp hfeed
      rfl
    · rintro next ⟨⟩
      decide
    · exact h

theorem newlines_source (pieces : List Piece) :
    newlines (source pieces) = source (newlinePieces pieces) := by
  induction pieces with
  | nil => rfl
  | cons piece pieces ih =>
    rw [source_cons, newlinePieces]
    by_cases h : piece.isChar '\r' = true
    · obtain ⟨hc, rfl⟩ := Piece.isChar_iff.mp h
      show newlines ('\r' :: source pieces) = _
      rw [newlines, if_pos rfl, if_pos h, ih]
      simp only [head?_source_eq_lineFeed]
      split_ifs <;> rfl
    · rw [if_neg h, newlines_append (Piece.no_return_source (eq_false_of_ne_true h)), ih]
      rfl

theorem newlines_convertPieces (pieces : List Piece) :
    newlines (convertPieces pieces) = convertPieces (newlinePieces pieces) := by
  induction pieces using convertPieces_induction with
  | nil => rfl
  | mark next c pieces hmark ih =>
    have hnext : next.isChar '\r' = false := by
      by_contra h
      obtain ⟨hc, rfl⟩ := Piece.isChar_iff.mp (eq_true_of_ne_false h)
      rw [Piece.mark, if_neg (by decide)] at hmark
      cases hmark
    have hc : c ≠ '\r' := by
      rintro rfl
      cases next with
      | text d h =>
        rw [Piece.mark] at hmark
        split_ifs at hmark with hd
        rcases hd with rfl | rfl <;> exact absurd hmark (by decide)
      | openBrace | closeBrace | field name h => exact absurd hmark (by simp [Piece.mark])
    have hpieces : newlinePieces (.openBrace :: next :: pieces) =
        .openBrace :: next :: newlinePieces pieces := by
      rw [newlinePieces, if_neg (by decide), newlinePieces, if_neg (by rw [hnext]; decide)]
    rw [convertPieces_mark next pieces hmark, hpieces, convertPieces_mark next _ hmark, ← ih]
    refine newlines_append ?_ _
    simp [stringTag, Ne.symm hc]
  | cons piece pieces h ih =>
    rw [convertPieces_cons h, newlinePieces]
    by_cases hreturn : piece.isChar '\r' = true
    · obtain ⟨hc, rfl⟩ := Piece.isChar_iff.mp hreturn
      show newlines ('\r' :: convertPieces pieces) = _
      rw [newlines, if_pos rfl, if_pos hreturn, ih]
      simp only [head?_convertPieces_eq_lineFeed]
      split_ifs
      · rfl
      · rw [convertPieces_cons_of_ne (by decide)]
        rfl
    · rw [if_neg hreturn, convertPieces_cons fun hopen => mark_newlinePieces (h hopen), ← ih]
      exact newlines_append (Piece.no_return_converted (eq_false_of_ne_true hreturn)) _

end Newlines

end GraphLoom.Prompts
