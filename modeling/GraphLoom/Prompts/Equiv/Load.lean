import Mathlib.Data.Bool.AllAny
import GraphLoom.Prompts.Equiv.Convert

/-!
# Loaded prompts keep their meaning

A prompt in Python's format syntax is loaded as a template that prints what Python would print, if
and only if no field comes directly after an odd number of doubled opening braces
(`buildTemplate_keepsMeaning_iff`).  After an odd number the last brace is left over and makes a tag
of three braces with the field.  A prompt whose braces Python refuses is refused.
-/

namespace GraphLoom.Prompts

open GraphLoom.Foundation GraphLoom.Foundation.PythonFormat

/-! ### Fields after a left over brace -/

/-- `FieldsClear` after an even or odd number of doubled opening braces. -/
def fieldsClearFrom : Bool → List Piece → Bool
  | _, [] => true
  | odd, .openBrace :: pieces => fieldsClearFrom (!odd) pieces
  | odd, .field _ _ :: pieces => !odd && fieldsClearFrom false pieces
  | _, _ :: pieces => fieldsClearFrom false pieces

theorem openBracesAtEnd_open_open (pieces : List Piece) :
    Even (openBracesAtEnd (.openBrace :: .openBrace :: pieces)) ↔ Even (openBracesAtEnd pieces) := by
  unfold openBracesAtEnd
  rw [List.reverse_cons, List.reverse_cons, List.append_assoc, List.takeWhile_append]
  split_ifs with h
  · have htwo : [Piece.openBrace] ++ [Piece.openBrace] = List.replicate 2 Piece.openBrace := rfl
    rw [h, htwo, List.takeWhile_replicate, if_pos (show Piece.openBrace.isOpen = true from rfl),
      List.length_append, List.length_replicate, List.length_reverse, Nat.even_add]
    exact iff_true_right (by decide)
  · rfl

/-- A piece that is no opening brace ends the run of braces. -/
theorem openBracesAtEnd_append_cons {piece : Piece} (h : piece.isOpen = false)
    (front pieces : List Piece) :
    openBracesAtEnd (front ++ piece :: pieces) = openBracesAtEnd pieces := by
  unfold openBracesAtEnd
  rw [List.reverse_append, List.reverse_cons, List.append_assoc, List.takeWhile_append]
  split_ifs with hall
  · rw [List.singleton_append, List.takeWhile_cons, h, hall]
    simp
  · rfl

/-- `odd` is whether one more opening brace stands before the pieces. -/
theorem fieldsClearFrom_iff (odd : Bool) (pieces : List Piece) :
    fieldsClearFrom odd pieces = true ↔
      ∀ before name h after, pieces = before ++ .field name h :: after →
        Even (openBracesAtEnd (List.replicate odd.toNat .openBrace ++ before)) := by
  induction pieces generalizing odd with
  | nil => simp [fieldsClearFrom]
  | cons piece pieces ih =>
    have hcons : ∀ P : List Piece → Prop,
        (∀ before name h after, piece :: pieces = before ++ .field name h :: after → P before) ↔
          (∀ name h, piece = .field name h → P []) ∧
          ∀ before name h after, pieces = before ++ .field name h :: after → P (piece :: before) := by
      intro P
      constructor
      · intro hP
        refine ⟨fun name h hpiece => hP [] name h pieces (by rw [hpiece]; rfl),
          fun before name h after hpieces => hP (piece :: before) name h after ?_⟩
        rw [hpieces]
        rfl
      · rintro ⟨hnil, hmore⟩ before name h after hpieces
        rcases List.cons_eq_append_iff.mp hpieces with ⟨rfl, hfield⟩ | ⟨before, rfl, htail⟩
        · exact hnil name h (List.cons.inj hfield).1.symm
        · exact hmore before name h after htail
    have hother : piece.isOpen = false → (fieldsClearFrom false pieces = true ↔
        ∀ before name h after, pieces = before ++ .field name h :: after →
          Even (openBracesAtEnd (List.replicate odd.toNat .openBrace ++ piece :: before))) := by
      intro hopen
      rw [ih]
      simp only [openBracesAtEnd_append_cons hopen]
      rfl
    refine Iff.trans ?_ (hcons fun before =>
      Even (openBracesAtEnd (List.replicate odd.toNat .openBrace ++ before))).symm
    cases piece with
    | text c h | closeBrace =>
      rw [and_iff_right (by rintro name h ⟨⟩), ← hother rfl]
      rfl
    | openBrace =>
      rw [and_iff_right (by rintro name h ⟨⟩)]
      show fieldsClearFrom (!odd) pieces = true ↔ _
      rw [ih]
      cases odd with
      | false => rfl
      | true =>
        refine forall₅_congr fun before name h after hpieces => ?_
        exact (openBracesAtEnd_open_open before).symm
    | field name h =>
      rw [← hother rfl]
      show (!odd && fieldsClearFrom false pieces) = true ↔ _
      rw [Bool.and_eq_true]
      refine and_congr_left fun _ => ?_
      cases odd with
      | false => exact iff_of_true rfl fun _ _ _ => by decide
      | true => exact iff_of_false (by decide) fun hall => absurd (hall name h rfl) (by decide)

theorem fieldsClear_iff (pieces : List Piece) :
    FieldsClear pieces ↔ fieldsClearFrom false pieces = true :=
  (fieldsClearFrom_iff false pieces).symm

theorem fieldsClearFrom_mark {next : Piece} {c : Char} (h : next.mark = some c)
    (pieces : List Piece) :
    fieldsClearFrom false (.openBrace :: next :: pieces) = fieldsClearFrom false pieces := by
  cases next with
  | text c h | openBrace => rfl
  | closeBrace | field name hname => cases h

theorem fieldsClearFrom_newlinePieces (odd : Bool) (pieces : List Piece) :
    fieldsClearFrom odd (newlinePieces pieces) = fieldsClearFrom odd pieces := by
  induction pieces generalizing odd with
  | nil => rfl
  | cons piece pieces ih =>
    rw [newlinePieces]
    by_cases hreturn : piece.isChar '\r' = true
    · obtain ⟨hc, rfl⟩ := Piece.isChar_iff.mp hreturn
      rw [if_pos hreturn]
      split_ifs with hfeed
      · -- the line feed that follows ends a run of braces as the carriage return does
        show _ = fieldsClearFrom false pieces
        rw [ih]
        cases pieces with
        | nil => rfl
        | cons next pieces =>
          obtain ⟨hd, rfl⟩ := Piece.isChar_iff.mp hfeed
          rfl
      · exact ih false
    · rw [if_neg hreturn]
      cases piece with
      | text c h | closeBrace => exact ih false
      | openBrace => exact ih (!odd)
      | field name h =>
        show (!odd && fieldsClearFrom false (newlinePieces pieces)) = _
        rw [ih]
        rfl

/-! ### The template prints the pieces -/

section Render

variable {tera : Tera} {name : String}

/-- The text is a template that prints the pieces, or it is no template when a field comes after a
left over brace. -/
structure Stands (tera : Tera) (name : String) (content : List Char) (pieces : List Piece) :
    Prop where
  prints : fieldsClearFrom false pieces = true →
    tera.Prints name content fun context => render context pieces
  rejects : fieldsClearFrom false pieces = false → tera.Rejects name content

/-- A front that prints what the first pieces print. -/
theorem Stands.append {front rest : List Char} {first : Context → Option (List Char)}
    {pieces pieces' : List Piece} (h : Stands tera name rest pieces)
    (hfront : tera.PrintsBefore name front first rest)
    (hclear : fieldsClearFrom false pieces' = fieldsClearFrom false pieces)
    (hrender : ∀ context, Tera.before first (fun context => render context pieces) context =
      render context pieces') :
    Stands tera name (front ++ rest) pieces' := by
  constructor
  · intro hpieces
    rw [hclear] at hpieces
    rw [← funext hrender]
    exact hfront.prints _ (h.prints hpieces)
  · intro hpieces
    rw [hclear] at hpieces
    exact hfront.rejects (h.rejects hpieces)

theorem mark_spec {next : Piece} {c : Char} (h : next.mark = some c) (context : Context) :
    next.render context = some [c] ∧ c ≠ '"' ∧ c ≠ '\\' := by
  cases next with
  | text d hd =>
    rw [Piece.mark] at h
    split_ifs at h with hmark
    obtain rfl := Option.some.inj h
    refine ⟨rfl, ?_, ?_⟩ <;> rintro rfl <;> exact absurd hmark (by decide)
  | openBrace =>
    obtain rfl := Option.some.inj h
    exact ⟨rfl, by decide, by decide⟩
  | closeBrace | field name hname => cases h

/-- After an opening brace that makes no tag with the next piece, only a field may come. -/
theorem open_cases {pieces : List Piece} (h : ∀ next ∈ pieces.head?, next.mark = none) :
    (opensTag ('{' :: convertPieces pieces) = false ∧
      fieldsClearFrom true pieces = fieldsClearFrom false pieces) ∨
    ∃ field hfield after, pieces = .field field hfield :: after := by
  rcases pieces with - | ⟨next, pieces⟩
  · exact Or.inl ⟨rfl, rfl⟩
  · cases next with
    | text c hc =>
      have hmark : (Piece.text c hc).mark = none := h _ rfl
      rw [Piece.mark] at hmark
      split_ifs at hmark with hne
      rw [not_or] at hne
      rw [convertPieces_cons_of_ne (by simp)]
      refine Or.inl ⟨?_, rfl⟩
      simp [Piece.converted, opensTag, hc.1, hne]
    | openBrace => exact absurd (h .openBrace rfl) (by decide)
    | closeBrace =>
      rw [convertPieces_cons_of_ne (by simp)]
      exact Or.inl ⟨rfl, rfl⟩
    | field field hfield => exact Or.inr ⟨field, hfield, pieces, rfl⟩

theorem opensTag_of_ne {c : Char} (h : c ≠ '{') (rest : List Char) :
    opensTag (c :: rest) = false := by
  simp [opensTag, h]

variable (documented : tera.Documented) (hname : autoEscaped name = false)
include documented hname

/-- The template of a list of pieces prints the pieces, or it is no template. -/
theorem convertPieces_stands (pieces : List Piece) :
    Stands tera name (convertPieces pieces) pieces := by
  induction pieces using convertPieces_induction with
  | nil => exact ⟨fun _ => documented.empty name, fun h => absurd h (by decide)⟩
  | mark next c pieces hmark ih =>
    obtain ⟨-, hquote, hescape⟩ := mark_spec hmark fun _ => none
    rw [convertPieces_mark next pieces hmark]
    refine ih.append (documented.stringTag name ['{', c] _ hname ?_ ?_)
      (fieldsClearFrom_mark hmark pieces) fun context => ?_
    · simp [Ne.symm hquote]
    · simp [Ne.symm hescape]
    · rw [render, render, (mark_spec hmark context).1]
      show _ = (do return ['{'] ++ (← (do return [c] ++ (← render context pieces))))
      cases hpieces : render context pieces with
      | none => simp [Tera.before, hpieces]
      | some text => simp [Tera.before, hpieces]
  | cons piece pieces h ih =>
    rw [convertPieces_cons h]
    cases piece with
    | text c hc =>
      exact ih.append (documented.text name c _ (opensTag_of_ne hc.1 _)) rfl fun _ => rfl
    | closeBrace =>
      exact ih.append (documented.text name '}' _ rfl) rfl fun _ => rfl
    | field field hfield =>
      exact ih.append (documented.variableTag name field _ hname hfield) rfl fun _ => rfl
    | openBrace =>
      rcases open_cases (h rfl) with ⟨hopens, hclear⟩ | ⟨field, hfield, after, rfl⟩
      · exact ih.append (documented.text name '{' _ hopens) hclear fun _ => rfl
      · rw [convertPieces_cons_of_ne (by simp)]
        exact ⟨fun hclear => absurd hclear Bool.false_ne_true,
          fun _ => documented.brace name field _ hfield⟩

end Render

/-! ### Loading -/

/-- The loaded prompt prints what Python prints, for all arguments that Python has the fields of. -/
def KeepsMeaning (tera : Tera) (kind : PromptKind) (content : List Char) (origin : PromptSource) :
    Prop :=
  ∀ arguments text, strFormat arguments (normalizePythonNewlines content) = .ok text →
    ∃ template, buildTemplate tera kind content origin = .ok template ∧
      (⟨template.kind, template.template, contextOf arguments, template.source⟩ :
        Prompt tera).render = .ok text

/-- The prompt is refused when Python refuses its braces. -/
def RefusesUnbalanced (tera : Tera) (kind : PromptKind) (content : List Char)
    (origin : PromptSource) : Prop :=
  ∀ arguments error, strFormat arguments (normalizePythonNewlines content) = .error error →
    error.unbalanced = true → ∃ refusal, buildTemplate tera kind content origin = .error refusal

theorem autoEscaped_filename (kind : PromptKind) : autoEscaped kind.filename = false := by
  cases kind <;> decide

theorem normalizePythonNewlines_source (pieces : List Piece) :
    normalizePythonNewlines (source pieces) = source (newlinePieces pieces) := by
  rw [normalizePythonNewlines_eq, newlines_source]

section Load

variable {tera : Tera} {kind : PromptKind} {origin : PromptSource} {pieces : List Piece}

theorem buildTemplate_source (h : HasKnownPiece kind pieces) :
    buildTemplate tera kind (source pieces) origin =
      PromptTemplate.tryNew tera kind (convertPieces pieces) origin := by
  unfold buildTemplate
  rw [convertGraphragFormatSyntax_source h]
  rfl

theorem tryNew_convertPieces : PromptTemplate.tryNew tera kind (convertPieces pieces) origin =
    match tera.addRawTemplate kind.filename (convertPieces (newlinePieces pieces)) with
    | .error message => .error (promptRenderError kind origin message)
    | .ok template => .ok ⟨kind, convertPieces (newlinePieces pieces), origin, template⟩ := by
  unfold PromptTemplate.tryNew
  rewrite [normalizePythonNewlines_eq, newlines_convertPieces]
  rfl

theorem strFormat_eq_ok_iff {arguments : ReplacementField → Option (List Char)}
    {text : List Char} :
    strFormat arguments (source pieces) = .ok text ↔
      render (contextOf arguments) pieces = some text := by
  rw [strFormat_source]
  cases render (contextOf arguments) pieces with
  | none => simp
  | some text' => simp

theorem render_total (pieces : List Piece) :
    ∃ text, render (fun _ => some []) pieces = some text := by
  induction pieces with
  | nil => exact ⟨[], rfl⟩
  | cons piece pieces ih =>
    obtain ⟨text, htext⟩ := ih
    obtain ⟨first, hfirst⟩ : ∃ first, piece.render (fun _ => some []) = some first := by
      cases piece <;> exact ⟨_, rfl⟩
    exact ⟨first ++ text, by rw [render, hfirst, htext]; rfl⟩

variable (documented : tera.Documented)
include documented

theorem keepsMeaning_iff (h : HasKnownPiece kind pieces) :
    KeepsMeaning tera kind (source pieces) origin ↔ FieldsClear pieces := by
  have hstands := convertPieces_stands documented (autoEscaped_filename kind) (newlinePieces pieces)
  rw [fieldsClear_iff, ← fieldsClearFrom_newlinePieces]
  unfold KeepsMeaning
  rw [buildTemplate_source h, tryNew_convertPieces, normalizePythonNewlines_source]
  by_cases hclear : fieldsClearFrom false (newlinePieces pieces) = true
  · refine iff_of_true (fun arguments text htext => ?_) hclear
    obtain ⟨template, hadd, hrender⟩ := hstands.prints hclear
    refine ⟨_, by rw [hadd], ?_⟩
    unfold Prompt.render
    dsimp only
    rw [hrender _ _ (strFormat_eq_ok_iff.mp htext)]
  · refine iff_of_false (fun hall => ?_) hclear
    obtain ⟨message, hadd⟩ := hstands.rejects (eq_false_of_ne_true hclear)
    obtain ⟨text, htext⟩ := render_total (newlinePieces pieces)
    obtain ⟨template, hbuild, -⟩ :=
      hall (fun _ => some []) text (strFormat_eq_ok_iff.mpr htext)
    rw [hadd] at hbuild
    cases hbuild

omit documented in
/-- Where the scanner accepts, Python does. -/
theorem refusesUnbalanced {content : List Char} (h : HasKnownField kind content) :
    RefusesUnbalanced tera kind content origin := by
  intro arguments error hformat hunbalanced
  unfold buildTemplate convertGraphragFormatSyntax
  rw [if_pos (containsGraphragKnownRootField_of_hasKnownField h)]
  cases hscan : scanGraphragFormat content with
  | error message => exact ⟨_, rfl⟩
  | ok parts =>
    obtain ⟨pieces, rfl⟩ := scanGraphragFormat_eq_ok.mp ⟨parts, hscan⟩
    rw [normalizePythonNewlines_source, strFormat_source] at hformat
    cases hrender : render (contextOf arguments) (newlinePieces pieces) with
    | none =>
      rw [hrender] at hformat
      obtain rfl := Except.error.inj hformat
      exact absurd hunbalanced (by decide)
    | some text =>
      rw [hrender] at hformat
      cases hformat

end Load

/-- A prompt in Python's format syntax keeps its meaning if and only if no field of it is directly
preceded by an odd number of doubled opening braces, and it is refused when Python refuses its
braces. -/
theorem buildTemplate_keepsMeaning_iff {tera : Tera} (documented : tera.Documented)
    (kind : PromptKind) (origin : PromptSource) :
    (∀ pieces, HasKnownPiece kind pieces →
      (KeepsMeaning tera kind (source pieces) origin ↔ FieldsClear pieces)) ∧
    (∀ content, HasKnownField kind content → RefusesUnbalanced tera kind content origin) :=
  ⟨fun _ h => keepsMeaning_iff documented h, fun _ h => refusesUnbalanced h⟩

/-! ### An engine with variables and strings -/

inductive SampleNode where
  | text (c : Char)
  | value (name : List Char)
  | string (text : List Char)

def isNameChar (c : Char) : Bool := c.isAlphanum || c == '_'

/-- The tag at the front of a text, and its length. -/
def sampleTag : List Char → Option (SampleNode × ℕ)
  | '{' :: '{' :: ' ' :: rest =>
    if rest.head? = some '"' then
      let text := rest.tail.takeWhile (· != '"')
      if ['"', ' ', '}', '}'] <+: rest.tail.drop text.length then
        some (.string text, text.length + 8)
      else none
    else
      let name := rest.takeWhile isNameChar
      if isSimpleFormatField name ∧ [' ', '}', '}'] <+: rest.drop name.length then
        some (.value name, name.length + 6)
      else none
  | _ => none

/-- The nodes of a text whose first `skip` characters belong to the node before. -/
def sampleParse : ℕ → List Char → Except String (List SampleNode)
  | _, [] => .ok []
  | skip + 1, _ :: rest => sampleParse skip rest
  | 0, c :: rest =>
    if opensTag (c :: rest) then
      match sampleTag (c :: rest) with
      | some (node, length) => (sampleParse (length - 1) rest).map (node :: ·)
      | none => .error "expected an expression"
    else (sampleParse 0 rest).map (.text c :: ·)

def SampleNode.render (context : Context) : SampleNode → Option (List Char)
  | text c => some [c]
  | value name => context (String.ofList name)
  | string content => some content

def sampleRender (context : Context) : List SampleNode → Option (List Char)
  | [] => some []
  | node :: nodes => do return (← node.render context) ++ (← sampleRender context nodes)

/-- Variables, strings and text, without the rest of the template language. -/
def sampleTera : Tera where
  Template := List SampleNode
  addRawTemplate _ content := sampleParse 0 content
  render nodes context :=
    match sampleRender context nodes with
    | some text => .ok text
    | none => .error "a variable is not found in the context"

theorem sampleParse_eq_drop (skip : ℕ) (text : List Char) :
    sampleParse skip text = sampleParse 0 (text.drop skip) := by
  induction skip generalizing text with
  | zero => rfl
  | succ skip ih =>
    cases text with
    | nil => rfl
    | cons c text => exact ih text

theorem sample_printsBefore {name : String} {front rest : List Char} {node : SampleNode}
    (h : sampleParse 0 (front ++ rest) = (sampleParse 0 rest).map (node :: ·)) :
    sampleTera.PrintsBefore name front (fun context => node.render context) rest := by
  constructor
  · rintro out ⟨nodes, hadd, hrender⟩
    have hparse : sampleParse 0 rest = .ok nodes := hadd
    refine ⟨node :: nodes, ?_, fun context text htext => ?_⟩
    · show sampleParse 0 (front ++ rest) = _
      rw [h, hparse]
      rfl
    · unfold Tera.before at htext
      cases hnode : node.render context with
      | none => simp [hnode] at htext
      | some first =>
        cases hout : out context with
        | none => simp [hnode, hout] at htext
        | some second =>
          have hsecond : sampleRender context nodes = some second := by
            have := hrender context second hout
            show _ = _
            cases hnodes : sampleRender context nodes with
            | none => simp [sampleTera, hnodes] at this
            | some text' => simpa [sampleTera, hnodes] using this
          obtain rfl : first ++ second = text := by simpa [hnode, hout] using htext
          have hall : sampleRender context (node :: nodes) = some (first ++ second) := by
            show (do return (← node.render context) ++ (← sampleRender context nodes)) = _
            rw [hnode, hsecond]
            rfl
          simp [sampleTera, hall]
  · rintro ⟨message, hadd⟩
    have hparse : sampleParse 0 rest = .error message := hadd
    refine ⟨message, ?_⟩
    show sampleParse 0 (front ++ rest) = _
    rw [h, hparse]
    rfl

/-- A tag at the front of a text is one node. -/
theorem sampleParse_tag {front : List Char} {node : SampleNode} (hne : front ≠ [])
    (rest : List Char) (hopens : opensTag (front ++ rest) = true)
    (htag : sampleTag (front ++ rest) = some (node, front.length)) :
    sampleParse 0 (front ++ rest) = (sampleParse 0 rest).map (node :: ·) := by
  obtain ⟨c, front, rfl⟩ := List.exists_cons_of_ne_nil hne
  rw [List.cons_append] at hopens htag ⊢
  rw [sampleParse, if_pos hopens, htag]
  dsimp only
  rw [sampleParse_eq_drop, List.length_cons, Nat.add_sub_cancel, List.drop_left]

theorem sampleTag_variable {field : List Char} (h : isSimpleFormatField field = true)
    (rest : List Char) :
    sampleTag (variableTag field ++ rest) = some (.value field, (variableTag field).length) := by
  have htake : (field ++ ' ' :: '}' :: '}' :: rest).takeWhile isNameChar = field := by
    rw [List.takeWhile_append_of_pos, List.takeWhile_cons_of_neg (by decide), List.append_nil]
    intro c hc
    rcases isSimpleFormatField_no_brace h hc with hc | hc <;> simp [isNameChar, hc]
  have hhead : (field ++ ' ' :: '}' :: '}' :: rest).head? ≠ some '"' := by
    cases field with
    | nil => simp [isSimpleFormatField] at h
    | cons c field =>
      exact fun hc =>
        isSimpleFormatField_ne h (List.mem_cons_self ..) (by decide) (Option.some.inj hc)
  have htext : variableTag field ++ rest =
      '{' :: '{' :: ' ' :: (field ++ ' ' :: '}' :: '}' :: rest) := by
    simp [variableTag]
  rw [htext, sampleTag, if_neg hhead]
  dsimp only
  rw [htake, List.drop_left, if_pos ⟨h, rest, rfl⟩]
  simp [variableTag]

theorem sampleTag_string {text : List Char} (h : '"' ∉ text) (rest : List Char) :
    sampleTag (stringTag text ++ rest) = some (.string text, (stringTag text).length) := by
  have htake : (text ++ '"' :: ' ' :: '}' :: '}' :: rest).takeWhile (· != '"') = text := by
    rw [List.takeWhile_append_of_pos, List.takeWhile_cons_of_neg (by decide), List.append_nil]
    intro c hc
    rw [bne_iff_ne]
    rintro rfl
    exact h hc
  have htext : stringTag text ++ rest =
      '{' :: '{' :: ' ' :: '"' :: (text ++ '"' :: ' ' :: '}' :: '}' :: rest) := by
    simp [stringTag]
  rw [htext, sampleTag, List.head?_cons, if_pos rfl, List.tail_cons]
  dsimp only
  rw [htake, List.drop_left, if_pos ⟨rest, rfl⟩]
  simp [stringTag]

theorem sampleTera_documented : sampleTera.Documented where
  empty _ := ⟨[], rfl, fun _ text h => by rw [← Option.some.inj h]; rfl⟩
  text name c rest h := by
    have hparse : sampleParse 0 ([c] ++ rest) = (sampleParse 0 rest).map (.text c :: ·) := by
      show sampleParse 0 (c :: rest) = _
      rw [sampleParse, h]
      rfl
    exact sample_printsBefore hparse
  variableTag name field rest _ h :=
    sample_printsBefore (sampleParse_tag (by simp [variableTag]) rest rfl (sampleTag_variable h rest))
  stringTag name text rest _ h _ :=
    sample_printsBefore (sampleParse_tag (by simp [stringTag]) rest rfl (sampleTag_string h rest))
  brace name field rest h := ⟨_, rfl⟩

/-- The text `{{{input_text}}}`: a field between doubled braces. -/
def leftOverBrace : List Piece :=
  [.openBrace, .field "input_text".toList (by decide), .closeBrace]

/-- The text `{{ {input_text}}}`. -/
def separatedBrace : List Piece :=
  [.openBrace, .text ' ' (by decide), .field "input_text".toList (by decide), .closeBrace]

/-- A blank keeps the brace and the field apart, and a brace that is not closed is refused. -/
theorem buildTemplate_keepsMeaning_sample :
    KeepsMeaning sampleTera .extractGraph (source separatedBrace) .inline ∧
    RefusesUnbalanced sampleTera .extractGraph "\x7binput_text\x7d \x7b".toList .inline := by
  obtain ⟨hkeeps, hrefuses⟩ :=
    buildTemplate_keepsMeaning_iff sampleTera_documented .extractGraph .inline
  have hknown : HasKnownPiece .extractGraph separatedBrace :=
    ⟨"input_text".toList, by decide, by decide, by decide⟩
  have hfield : HasKnownField .extractGraph "\x7binput_text\x7d \x7b".toList :=
    ⟨[], 0, "input_text".toList, " \x7b".toList, by decide, by decide,
      List.all_iff_forall_prop.mp (by decide), knownField_simple (by decide) (by decide)⟩
  exact ⟨(hkeeps _ hknown).mpr ((fieldsClear_iff _).mpr (by decide)), hrefuses _ hfield⟩

/-- Python puts the value between braces, and the prompt is refused. -/
theorem buildTemplate_leftOverBrace :
    "{{{input_text}}}".toList = source leftOverBrace ∧
    HasKnownPiece .extractGraph leftOverBrace ∧
    strFormat (fun _ => some "Alice".toList) (source leftOverBrace) =
      .ok "{Alice}".toList ∧
    ¬ KeepsMeaning sampleTera .extractGraph (source leftOverBrace) .inline := by
  have hknown : HasKnownPiece .extractGraph leftOverBrace :=
    ⟨"input_text".toList, by decide, by decide, by decide⟩
  refine ⟨by decide, hknown, ?_, ?_⟩
  · rw [strFormat_eq_ok_iff]
    rfl
  · rw [keepsMeaning_iff sampleTera_documented hknown, fieldsClear_iff]
    decide

end GraphLoom.Prompts
