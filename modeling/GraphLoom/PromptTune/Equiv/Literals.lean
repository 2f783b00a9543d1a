import GraphLoom.PromptTune.ExtractGraph
import GraphLoom.Prompts.Equiv.Load

/-!
# The templates of the extraction prompt

The braces of the templates are those of their slots, and the slots stand apart.

A text without fields is a format literal when it is the escaped form of what it prints
(`isFormatLiteral_iff`).  A prompt that is a literal, the field `input_text` and another literal
loads, and prints the two literals with the text between them (`buildTemplate_literal`).
-/

namespace GraphLoom.PromptTune

section Templates

open GraphLoom.Foundation

def promptParts : Option (List Char) → List TemplatePart
  | some _ => graphExtractionParts
  | none => untypedGraphExtractionParts

def exampleParts : Option (List Char) → List TemplatePart
  | some _ => exampleExtractionParts
  | none => untypedExampleExtractionParts

variable (types : Option (List Char))

theorem delimited_promptParts : delimited (promptParts types) = true := by
  cases types with
  | none => decide +kernel
  | some types =>
    show delimited graphExtractionParts = true
    decide +kernel

theorem delimited_exampleParts : delimited (exampleParts types) = true := by
  cases types with
  | none => decide +kernel
  | some types =>
    show delimited exampleExtractionParts = true
    decide +kernel

theorem slots_promptParts : slots (promptParts types) = match types with
      | some _ => ["entity_types".toList, "language".toList, "language".toList, "examples".toList,
          "entity_types".toList, "input_text".toList]
      | none => ["language".toList, "language".toList, "examples".toList, "input_text".toList] := by
  cases types <;> rfl

theorem slots_exampleParts : slots (exampleParts types) = match types with
      | some _ => ["n".toList, "entity_types".toList, "input_text".toList, "output".toList]
      | none => ["n".toList, "input_text".toList, "output".toList] := by
  cases types <;> rfl

theorem withoutStorageLf_graphExtraction :
    withoutStorageLf graphExtractionPromptSource = templateText graphExtractionParts := by
  simp [withoutStorageLf, graphExtractionPromptSource]

end Templates

/-! ## Format literals -/

section FormatLiterals

open GraphLoom.Foundation GraphLoom.Foundation.PythonFormat GraphLoom.Prompts

/-! ### Escaping -/

/-- A doubled brace, or any other character. -/
def double (c : Char) : List Char := if c = '{' ∨ c = '}' then [c, c] else [c]

theorem escapePythonFormatLiteral_eq (input : List Char) :
    escapePythonFormatLiteral input = input.flatMap double := by
  unfold escapePythonFormatLiteral
  rw [replace_singleton, replace_singleton, List.flatMap_assoc]
  congr 1
  funext c
  unfold double
  by_cases hopen : c = '{'
  · subst hopen
    rfl
  · by_cases hclose : c = '}'
    · subst hclose
      rfl
    · simp [hopen, hclose]

theorem escape_append (front rest : List Char) :
    escapePythonFormatLiteral (front ++ rest) =
      escapePythonFormatLiteral front ++ escapePythonFormatLiteral rest := by
  rw [escapePythonFormatLiteral_eq, escapePythonFormatLiteral_eq, escapePythonFormatLiteral_eq,
    List.flatMap_append]

theorem escape_cons (c : Char) (rest : List Char) :
    escapePythonFormatLiteral (c :: rest) = double c ++ escapePythonFormatLiteral rest := by
  rw [escapePythonFormatLiteral_eq, escapePythonFormatLiteral_eq, List.flatMap_cons]

variable {text : List Char}

theorem escape_of_no_brace (h : ∀ c ∈ text, c ≠ '{' ∧ c ≠ '}') :
    escapePythonFormatLiteral text = text := by
  induction text with
  | nil => rfl
  | cons c text ih =>
    obtain ⟨hopen, hclose⟩ := h c (List.mem_cons_self ..)
    rw [escape_cons, ih fun d hd => h d (List.mem_cons_of_mem c hd)]
    simp [double, hopen, hclose]

variable {name : List Char}

/-- An escaped text begins with the characters of the text up to its first brace. -/
theorem slotName_prefix_escape_iff (hname : isSlotName name = true) (text : List Char) :
    name ++ ['}'] <+: escapePythonFormatLiteral text ↔ name ++ ['}'] <+: text := by
  induction name generalizing text with
  | nil =>
    cases text with
    | nil => rfl
    | cons c text =>
      rw [escape_cons, List.nil_append, List.cons_prefix_cons, and_iff_left (List.nil_prefix)]
      unfold double
      split_ifs <;> simp
  | cons c name ih =>
    rw [isSlotName, List.all_cons, Bool.and_eq_true] at hname
    cases text with
    | nil => rfl
    | cons d text =>
      rw [escape_cons, List.cons_append, List.cons_prefix_cons, ← ih hname.2]
      unfold double
      by_cases hd : d = '{' ∨ d = '}'
      · have hne : c ≠ d := by
          rintro rfl
          rcases hd with rfl | rfl <;> exact absurd hname.1 (by decide)
        rw [if_pos hd, List.cons_append, List.cons_prefix_cons]
        simp [hne]
      · rw [if_neg hd, List.singleton_append, List.cons_prefix_cons]

/-- Escaping a text neither hides a placeholder nor makes one. -/
theorem placeholder_infix_escape_iff (hname : isSlotName name = true) (text : List Char) :
    placeholder name <:+: escapePythonFormatLiteral text ↔ placeholder name <:+: text := by
  induction text with
  | nil => rfl
  | cons c text ih =>
    rw [escape_cons, List.infix_cons_iff, ← ih]
    unfold double placeholder
    by_cases hopen : c = '{'
    · subst hopen
      have hsecond : ¬ '{' :: (name ++ ['}']) <+: '{' :: '{' :: escapePythonFormatLiteral text := by
        rw [List.cons_prefix_cons]
        rintro ⟨-, h⟩
        cases name with
        | nil => exact absurd (List.cons_prefix_cons.mp h).1 (by decide)
        | cons d name =>
          obtain rfl := (List.cons_prefix_cons.mp h).1
          exact absurd hname (by simp [isSlotName, isSlotNameChar])
      rw [if_pos (Or.inl rfl), List.cons_append, List.singleton_append, List.infix_cons_iff,
        or_iff_right hsecond, List.infix_cons_iff, List.cons_prefix_cons, List.cons_prefix_cons,
        slotName_prefix_escape_iff hname]
    · have hfront : ∀ rest, ¬ '{' :: (name ++ ['}']) <+: c :: rest := fun rest h =>
        hopen (List.cons_prefix_cons.mp h).1.symm
      rw [or_iff_right (hfront text)]
      split_ifs with hclose
      · rw [List.cons_append, List.singleton_append, List.infix_cons_iff, or_iff_right (hfront _),
          List.infix_cons_iff, or_iff_right (hfront _)]
      · rw [List.singleton_append, List.infix_cons_iff, or_iff_right (hfront _)]

/-! ### Literals -/

/-- Python reads the text as characters without a field. -/
def IsFormatLiteral (text : List Char) : Prop :=
  ∃ meaning : List Char, parse text = .ok (meaning.map Chunk.literal)

theorem source_map_ofChar (text : List Char) :
    source (text.map Piece.ofChar) = escapePythonFormatLiteral text := by
  induction text with
  | nil => rfl
  | cons c text ih =>
    rw [List.map_cons, source_cons, escape_cons, ih]
    congr 1
    unfold Piece.ofChar double
    by_cases hopen : c = '{'
    · subst hopen
      rfl
    · by_cases hclose : c = '}'
      · subst hclose
        rfl
      · simp [hopen, hclose, Piece.source]

theorem chunk_ofChar (c : Char) : (Piece.ofChar c).chunk = .literal c := by
  unfold Piece.ofChar
  split_ifs with hopen hclose
  · rw [hopen, Piece.chunk]
  · rw [hclose, Piece.chunk]
  · rfl

/-- What Python reads as characters is their escaped form. -/
theorem escape_of_parse {meaning : List Char} (h : parse text = .ok (meaning.map Chunk.literal)) :
    text = escapePythonFormatLiteral meaning := by
  induction hlength : text.length using Nat.strongRecOn generalizing text meaning with
  | ind n ih =>
  rcases text with - | ⟨c, text⟩
  · rw [parse] at h
    have hnil := Except.ok.inj h
    rw [List.map_eq_nil_iff.mp hnil.symm]
    rfl
  · rw [List.length_cons] at hlength
    have hliteral : ∀ {rest : List Char}, rest.length < n →
        (parse rest).map (.literal c :: ·) = .ok (meaning.map Chunk.literal) →
          ∃ meaning', meaning = c :: meaning' ∧ rest = escapePythonFormatLiteral meaning' := by
      intro rest hrest hmap
      obtain ⟨chunks, hparse, hchunks⟩ := map_eq_ok.mp hmap
      rcases meaning with - | ⟨d, meaning⟩
      · cases hchunks
      · rw [List.map_cons, List.cons.injEq, Chunk.literal.injEq] at hchunks
        obtain ⟨rfl, rfl⟩ := hchunks
        exact ⟨meaning, rfl, ih rest.length hrest hparse rfl⟩
    rw [parse] at h
    split_ifs at h with hopen hnil hhead hclose hhead
    · obtain ⟨tail, rfl⟩ := List.head?_eq_some_iff.mp hhead
      rw [List.length_cons] at hlength
      obtain ⟨meaning', rfl, htail⟩ := hliteral (by rw [List.tail_cons]; omega) h
      rw [List.tail_cons] at htail
      rw [escape_cons, ← htail, hopen]
      rfl
    · split at h
      · cases h
      · obtain ⟨chunks, -, hchunks⟩ := map_eq_ok.mp h
        rcases meaning with - | ⟨d, meaning⟩ <;> cases hchunks
    · obtain ⟨tail, rfl⟩ := List.head?_eq_some_iff.mp hhead
      rw [List.length_cons] at hlength
      obtain ⟨meaning', rfl, htail⟩ := hliteral (by rw [List.tail_cons]; omega) h
      rw [List.tail_cons] at htail
      rw [escape_cons, ← htail, hclose]
      rfl
    · obtain ⟨meaning', rfl, htail⟩ := hliteral (by omega) h
      rw [escape_cons, ← htail]
      simp [double, hopen, hclose]

theorem isFormatLiteral_iff :
    IsFormatLiteral text ↔ ∃ meaning, text = escapePythonFormatLiteral meaning := by
  constructor
  · rintro ⟨meaning, h⟩
    exact ⟨meaning, escape_of_parse h⟩
  · rintro ⟨meaning, rfl⟩
    refine ⟨meaning, ?_⟩
    rw [← source_map_ofChar, parse_source, List.map_map]
    congr 2
    funext c
    exact chunk_ofChar c

/-! ### A prompt of literals around its field -/

/-- The field that the extraction workflow fills. -/
def inputText : List Char := "input_text".toList

def inputField : Prompts.Piece := .field inputText (by decide)

/-- A literal, the field `input_text` and a literal. -/
def promptPieces (before after : List Char) : List Prompts.Piece :=
  before.map Piece.ofChar ++ inputField :: after.map Piece.ofChar

variable (before after : List Char)

theorem source_promptPieces :
    source (promptPieces before after) = escapePythonFormatLiteral before ++
      (placeholder inputText ++ escapePythonFormatLiteral after) := by
  rw [promptPieces, source_append, source_cons, source_map_ofChar, source_map_ofChar]
  rfl

theorem isField_ofChar {c : Char} {h : isSimpleFormatField name = true} :
    Piece.ofChar c ≠ .field name h := by
  unfold Piece.ofChar
  split_ifs <;> simp

theorem isOpen_ofChar (c : Char) : (Piece.ofChar c).isOpen = (c == '{') := by
  unfold Piece.ofChar
  split_ifs with hopen hclose
  · subst hopen
    rfl
  · subst hclose
    rfl
  · exact (beq_eq_false_iff_ne.mpr hopen).symm

/-- No brace is left over before the field. -/
theorem fieldsClear_promptPieces {before : List Char} (h : before.getLast? ≠ some '{')
    (after : List Char) : FieldsClear (promptPieces before after) := by
  intro front name hname rest hpieces
  have hno : ∀ (text : List Char) (front rest : List Prompts.Piece),
      text.map Piece.ofChar ≠ front ++ .field name hname :: rest := by
    intro text front rest heq
    have hmem : Piece.field name hname ∈ text.map Piece.ofChar := by
      rw [heq]
      exact List.mem_append_right _ (List.mem_cons_self ..)
    obtain ⟨c, -, hc⟩ := List.mem_map.mp hmem
    exact isField_ofChar hc
  have hfront : front = before.map Piece.ofChar := by
    rcases List.append_eq_append_iff.mp hpieces with ⟨more, rfl, hmore⟩ | ⟨more, hbefore, hmore⟩
    · rcases more with - | ⟨piece, more⟩
      · rw [List.append_nil]
      · rw [List.cons_append] at hmore
        exact absurd (List.cons.inj hmore).2 (hno after more rest)
    · rcases more with - | ⟨piece, more⟩
      · rw [hbefore, List.append_nil]
      · rw [List.cons_append] at hmore
        obtain ⟨rfl, -⟩ := List.cons.inj hmore
        exact absurd hbefore (hno before front more)
  have hzero : openBracesAtEnd (before.map Piece.ofChar) = 0 := by
    unfold openBracesAtEnd
    rw [List.length_eq_zero_iff, ← List.map_reverse]
    rw [List.getLast?_eq_head?_reverse] at h
    cases hreverse : before.reverse with
    | nil => rfl
    | cons c text =>
      rw [hreverse] at h
      have hc : c ≠ '{' := fun hc => h (congrArg some hc)
      rw [List.map_cons, List.takeWhile_cons_of_neg]
      rw [isOpen_ofChar, beq_iff_eq]
      exact hc
  rw [hfront, hzero]
  decide

theorem newlinePieces_literal (text : List Char) (rest : List Prompts.Piece)
    (hrest : rest.head?.any (Piece.isChar '\n') = false) :
    newlinePieces (text.map Piece.ofChar ++ rest) =
      (newlines text).map Piece.ofChar ++ newlinePieces rest := by
  have hchar : ∀ c d : Char, (d ≠ '{' ∧ d ≠ '}') →
      (Piece.ofChar c).isChar d = (c == d) := by
    intro c d hd
    unfold Piece.ofChar
    split_ifs with hopen hclose
    · subst hopen
      exact (beq_eq_false_iff_ne.mpr (Ne.symm hd.1)).symm
    · subst hclose
      exact (beq_eq_false_iff_ne.mpr (Ne.symm hd.2)).symm
    · rfl
  induction text with
  | nil => rfl
  | cons c text ih =>
    have hhead : ((text.map Piece.ofChar ++ rest).head?.any (Piece.isChar '\n')) =
        (text.head? == some '\n') := by
      cases text with
      | nil => exact hrest
      | cons d text => exact hchar d '\n' (by decide)
    rw [List.map_cons, List.cons_append, newlinePieces, newlines, hchar c '\r' (by decide), hhead]
    by_cases hc : c = '\r'
    · simp only [hc, beq_self_eq_true, if_true, beq_iff_eq]
      split_ifs with hfeed
      · exact ih
      · rw [ih]
        rfl
    · rw [beq_eq_false_iff_ne.mpr hc, if_neg Bool.false_ne_true, if_neg hc, ih]
      rfl

theorem newlinePieces_promptPieces : newlinePieces (promptPieces before after) =
      promptPieces (newlines before) (newlines after) := by
  have hafter := newlinePieces_literal after [] rfl
  rw [List.append_nil] at hafter
  rw [promptPieces, newlinePieces_literal before _ rfl]
  show _ ++ inputField :: newlinePieces (after.map Piece.ofChar) = _
  rw [hafter]
  simp [promptPieces, newlinePieces]

theorem render_literal (context : Context) (text : List Char) (rest : List Prompts.Piece) :
    render context (text.map Piece.ofChar ++ rest) =
      (render context rest).map fun out => text ++ out := by
  induction text with
  | nil => simp
  | cons c text ih =>
    have hpiece : (Piece.ofChar c).render context = some [c] := by
      unfold Piece.ofChar
      split_ifs with hopen hclose
      · rw [hopen, Piece.render]
      · rw [hclose, Piece.render]
      · rfl
    rw [List.map_cons, List.cons_append, render, hpiece, ih]
    cases render context rest with
    | none => rfl
    | some out => rfl

theorem render_promptPieces {context : Context} {input : List Char}
    (h : context "input_text" = some input) (before after : List Char) :
    render context (promptPieces before after) = some (before ++ (input ++ after)) := by
  have hafter := render_literal context after []
  rw [List.append_nil] at hafter
  have hfield : inputField.render context = some input := h
  rw [promptPieces, render_literal, render, hfield, hafter]
  simp [render]

theorem hasKnownPiece_promptPieces : HasKnownPiece .extractGraph (promptPieces before after) := by
  refine ⟨inputText, by decide, ?_, by decide⟩
  exact List.mem_append_right _ (List.mem_cons_self ..)

/-- The prompt loads, and prints its literals with the input text between them. -/
theorem buildTemplate_literal {tera : Tera} (documented : tera.Documented) {before : List Char}
    (h : before.getLast? ≠ some '{') (after : List Char) (origin : PromptSource) :
    ∃ template, buildTemplate tera .extractGraph (escapePythonFormatLiteral before ++
        (placeholder inputText ++ escapePythonFormatLiteral after)) origin = .ok template ∧
      ∀ context input, context "input_text" = some input → (context "entity_types").isSome →
        ∃ bound, template.bind context = .ok bound ∧
          bound.render = .ok (newlines before ++ (input ++ newlines after)) := by
  have hkeeps : KeepsMeaning tera .extractGraph (source (promptPieces before after)) origin :=
    (keepsMeaning_iff documented (hasKnownPiece_promptPieces before after)).mpr
      (fieldsClear_promptPieces h after)
  rw [source_promptPieces] at hkeeps
  have hprints : ∀ context input, context "input_text" = some input →
      ∃ template, buildTemplate tera .extractGraph (escapePythonFormatLiteral before ++
          (placeholder inputText ++ escapePythonFormatLiteral after)) origin = .ok template ∧
        (⟨template.kind, template.template, context, template.source⟩ : Prompt tera).render =
          .ok (newlines before ++ (input ++ newlines after)) := by
    intro context input hinput
    have hcontext : contextOf (fun field => context (String.ofList field.name)) = context := by
      funext name
      simp [contextOf, ReplacementField.simple]
    have hformat := hkeeps (fun field => context (String.ofList field.name))
      (newlines before ++ (input ++ newlines after))
    rw [hcontext, ← source_promptPieces, normalizePythonNewlines_source, strFormat_eq_ok_iff,
      hcontext, newlinePieces_promptPieces, source_promptPieces] at hformat
    exact hformat (render_promptPieces hinput _ _)
  obtain ⟨template, hbuild, -⟩ := hprints (fun _ => some []) [] rfl
  refine ⟨template, hbuild, fun context input hinput htypes => ?_⟩
  obtain ⟨template', hbuild', hrender⟩ := hprints context input hinput
  rw [hbuild] at hbuild'
  obtain rfl := Except.ok.inj hbuild'
  refine ⟨_, ?_, hrender⟩
  have hkind : template.kind = .extractGraph := by
    unfold buildTemplate at hbuild
    obtain ⟨content, -, hnew⟩ := bind_eq_ok.mp hbuild
    unfold PromptTemplate.tryNew at hnew
    dsimp only at hnew
    split at hnew
    · cases hnew
    · rw [← Except.ok.inj hnew]
  have hfind : template.kind.variableNames.find? (fun variableName =>
      (context variableName).isNone) = none := by
    rw [hkind]
    obtain ⟨types, htypes⟩ := Option.isSome_iff_exists.mp htypes
    simp [PromptKind.variableNames, htypes, hinput]
  unfold PromptTemplate.bind
  rw [hfind]

end FormatLiterals

end GraphLoom.PromptTune
