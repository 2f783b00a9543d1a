import GraphLoom.PromptTune.Equiv.Literals

/-!
# Tuned prompts reproduce their documents

The replacements that assemble the prompt look for placeholders in the documents, examples and type
lists that are already in.  The prompt is the substitution of all the placeholders at once, loads,
and shows every document as it was, if and only if no such text has a placeholder in it that is
replaced later, and no document has a carriage return (`createExtractGraphPrompt_faithful_iff`).
-/

namespace GraphLoom.PromptTune

open GraphLoom.Foundation GraphLoom.Foundation.PythonFormat GraphLoom.Prompts

/-! ### The replacements as passes -/

/-- The replacements of an example, in their order. -/
def examplePasses (types : Option (List Char)) (i : ℕ) (input output : List Char) : List Pass :=
  match types with
  | some types => [("n".toList, (toString (i + 1)).toList), ("input_text".toList, input),
      ("entity_types".toList, types), ("output".toList, output)]
  | none => [("n".toList, (toString (i + 1)).toList), ("input_text".toList, input),
      ("output".toList, output)]

/-- The replacements of the prompt, in their order. -/
def promptPasses (types : Option (List Char)) (language examplesPrompt : List Char) : List Pass :=
  match types with
  | some types => [("examples".toList, examplesPrompt), ("entity_types".toList, types),
      ("language".toList, language)]
  | none => [("examples".toList, examplesPrompt), ("language".toList, language)]

def formatExample (types : Option (List Char)) (i : ℕ) (input output : List Char) : List Char :=
  replaceAll (templateText (exampleParts types)) (examplePasses types i input output)

theorem examplePasses_names (types : Option (List Char)) (i : ℕ) (input output : List Char) :
    (∀ pass ∈ examplePasses types i input output, isSlotName pass.1 = true) ∧
      ((examplePasses types i input output).map Prod.fst).Nodup := by
  cases types with
  | none => simp [examplePasses, isSlotName, isSlotNameChar]
  | some T => simp [examplePasses, isSlotName, isSlotNameChar]

theorem promptPasses_names (types : Option (List Char)) (language examplesPrompt : List Char) :
    (∀ pass ∈ promptPasses types language examplesPrompt, isSlotName pass.1 = true) ∧
      ((promptPasses types language examplesPrompt).map Prod.fst).Nodup := by
  cases types with
  | none => simp [promptPasses, isSlotName, isSlotNameChar]
  | some T => simp [promptPasses, isSlotName, isSlotNameChar]

theorem typedExample_eq (types : List Char) :
    typedExample types = formatExample (some types) := by
  funext i input output
  rfl

theorem untypedExample_eq : untypedExample = formatExample none := by
  funext i input output
  rfl

/-! ### The loop over the examples -/

/-- The texts that the loop pushes for its examples, from index `i` on. -/
def examplesText (format : ℕ → List Char → List Char → List Char) (i : ℕ) :
    List (List Char × List Char) → List Char
  | [] => []
  | (input, output) :: rest => format i input output ++ '\n' :: examplesText format (i + 1) rest

/-- The loop pushes the first examples, up to the index at which it stops. -/
theorem exampleLoop_spec {tokenizer : Tokenizer} {minExamplesRequired : ℕ}
    {format : ℕ → List Char → List Char → List Char} {i : ℕ} {tokensLeft : ℤ}
    {examplesPrompt : List Char} {examples docs : List (List Char)} {k : ℕ} {result : List Char}
    (h : exampleLoop tokenizer minExamplesRequired format i tokensLeft examplesPrompt examples docs =
      .ok (k, result)) :
    ∃ m, k = i + m ∧
      result = examplesPrompt ++ examplesText format i ((docs.zip examples).take m) := by
  induction examples generalizing i tokensLeft examplesPrompt docs with
  | nil =>
    obtain ⟨rfl, rfl⟩ := Prod.mk.inj (Except.ok.inj h)
    exact ⟨0, rfl, by rw [List.take_zero, examplesText, List.append_nil]⟩
  | cons output examples ih =>
    cases docs with
    | nil =>
      obtain ⟨rfl, rfl⟩ := Prod.mk.inj (Except.ok.inj h)
      exact ⟨0, rfl, by rw [List.take_zero, examplesText, List.append_nil]⟩
    | cons input docs =>
      obtain ⟨exampleTokens, -, h⟩ := bind_eq_ok.mp h
      split_ifs at h with hstop
      · obtain ⟨rfl, rfl⟩ := Prod.mk.inj (Except.ok.inj h)
        exact ⟨0, rfl, by rw [List.take_zero, examplesText, List.append_nil]⟩
      · obtain ⟨m, rfl, rfl⟩ := ih h
        refine ⟨m + 1, by omega, ?_⟩
        rw [List.zip_cons_cons, List.take_succ_cons, examplesText]
        simp

section Create

variable {entityTypes : Option (List (List Char))} {docs examples : List (List Char)}
  {language : List Char} {maxTokenCount : ℕ} {tokenizer : Tokenizer} {minExamplesRequired k : ℕ}
  {examplesPrompt prompt : List Char}

theorem createExamples_spec
    (h : createExamples entityTypes docs examples maxTokenCount tokenizer minExamplesRequired =
      .ok (k, examplesPrompt)) :
    examplesPrompt = examplesText (formatExample (entityTypes.map joinTypes)) 0
      ((docs.zip examples).take k) := by
  cases entityTypes with
  | none =>
    obtain ⟨m, rfl, rfl⟩ := exampleLoop_spec h
    rw [List.nil_append, untypedExample_eq, Nat.zero_add]
    rfl
  | some types =>
    obtain ⟨promptTokens, -, h⟩ := bind_eq_ok.mp h
    obtain ⟨entityTokens, -, h⟩ := bind_eq_ok.mp h
    obtain ⟨m, rfl, rfl⟩ := exampleLoop_spec h
    rw [List.nil_append, typedExample_eq, Nat.zero_add]
    rfl

theorem createExtractGraphPrompt_spec
    (h : createExamples entityTypes docs examples maxTokenCount tokenizer minExamplesRequired =
      .ok (k, examplesPrompt)) :
    createExtractGraphPrompt entityTypes docs examples language maxTokenCount tokenizer
        minExamplesRequired =
      .ok (replaceAll (templateText (promptParts (entityTypes.map joinTypes)))
        (promptPasses (entityTypes.map joinTypes) language examplesPrompt)) := by
  unfold createExtractGraphPrompt
  rw [h]
  cases entityTypes with
  | none => rfl
  | some types =>
    show Except.ok (replace _ _ (replace _ _ (replace _ _
      (withoutStorageLf graphExtractionPromptSource)))) = _
    rw [withoutStorageLf_graphExtraction]
    rfl

end Create

/-! ### No placeholder where it would be replaced -/

/-- No text that is put in has a placeholder in it that is replaced later. -/
structure NoPlaceholders (types : Option (List Char)) (included : List (List Char × List Char)) :
    Prop where
  types_language : ∀ T ∈ types, ¬ placeholder "language".toList <:+: T
  document : ∀ pair ∈ included, ¬ placeholder "output".toList <:+: pair.1 ∧
    ¬ placeholder "language".toList <:+: pair.1
  output : ∀ pair ∈ included, ¬ placeholder "language".toList <:+: pair.2
  types : ∀ T ∈ types, ∀ pair ∈ included, ¬ placeholder "entity_types".toList <:+: pair.1 ∧
    ¬ placeholder "entity_types".toList <:+: pair.2 ∧ ¬ placeholder "output".toList <:+: T ∧
    ¬ placeholder "entity_types".toList <:+: T

theorem not_placeholder_infix_of_not_mem {name text : List Char} (h : '{' ∉ text) :
    ¬ placeholder name <:+: text :=
  fun hinfix => h (List.IsInfix.subset hinfix (List.mem_cons_self ..))

theorem digits_no_brace (n : ℕ) : ∀ c ∈ (toString n).toList, c ≠ '{' ∧ c ≠ '}' := by
  intro c hc
  have hdigit : c.isDigit = true := by
    rw [show toString n = Nat.repr n from rfl, Nat.repr, String.toList_ofList] at hc
    exact Nat.isDigit_of_mem_toDigits (by decide) (by decide) hc
  constructor <;> rintro rfl <;> exact absurd hdigit (by decide)

theorem not_placeholder_infix_digits (name : List Char) (n : ℕ) :
    ¬ placeholder name <:+: (toString n).toList :=
  not_placeholder_infix_of_not_mem fun h => (digits_no_brace n _ h).1 rfl

/-- The replacements of an example find only its placeholders. -/
theorem onlyPlaceholders_example (types : Option (List Char)) (i : ℕ) (input output : List Char) :
    OnlyPlaceholders (templateText (exampleParts types)) (templateText (exampleParts types))
        (examplePasses types i input output) ↔
      ¬ placeholder "output".toList <:+: input ∧
        ∀ T ∈ types, ¬ placeholder "entity_types".toList <:+: input ∧
          ¬ placeholder "output".toList <:+: T := by
  have hdigits := fun name => not_placeholder_infix_digits name (i + 1)
  rw [onlyPlaceholders_iff (delimited_exampleParts types)]
  · unfold examplePasses
    generalize (toString (i + 1)).toList = digits at hdigits ⊢
    cases types with
    | none =>
      simp only [List.pairwise_cons, Harmless, slots_exampleParts]
      simp [hdigits]
    | some T =>
      simp only [List.pairwise_cons, Harmless, slots_exampleParts]
      simp [hdigits]
      tauto
  · exact (examplePasses_names types i input output).1
  · exact (examplePasses_names types i input output).2

/-- The replacements of the prompt find only its placeholders. -/
theorem onlyPlaceholders_prompt (types : Option (List Char)) (language examplesPrompt : List Char) :
    OnlyPlaceholders (templateText (promptParts types)) (templateText (promptParts types))
        (promptPasses types language examplesPrompt) ↔
      ¬ placeholder "language".toList <:+: examplesPrompt ∧
        ∀ T ∈ types, ¬ placeholder "entity_types".toList <:+: examplesPrompt ∧
          ¬ placeholder "language".toList <:+: T := by
  rw [onlyPlaceholders_iff (delimited_promptParts types)]
  · cases types with
    | none =>
      simp only [promptPasses, List.pairwise_cons, Harmless, slots_promptParts]
      simp
    | some T =>
      simp only [promptPasses, List.pairwise_cons, Harmless, slots_promptParts]
      simp
      tauto
  · exact (promptPasses_names types language examplesPrompt).1
  · exact (promptPasses_names types language examplesPrompt).2

/-! ### The prompt that fills its templates at once -/

def simultaneousExample (types : Option (List Char)) (i : ℕ) (input output : List Char) :
    List Char :=
  fill (valueOf (examplePasses types i input output)) (exampleParts types)

def simultaneousPrompt (types : Option (List Char)) (language : List Char)
    (included : List (List Char × List Char)) : List Char :=
  fill (valueOf (promptPasses types language (examplesText (simultaneousExample types) 0 included)))
    (promptParts types)

/-- The texts that the slots of an example get. -/
theorem forall_slots_example (types : Option (List Char)) (i : ℕ) (input output : List Char)
    {P : List Char → Prop} (hdigits : P (toString (i + 1)).toList) :
    (∀ slot ∈ slots (exampleParts types), P (valueOf (examplePasses types i input output) slot)) ↔
      P input ∧ P output ∧ ∀ T ∈ types, P T := by
  unfold examplePasses
  generalize (toString (i + 1)).toList = digits at hdigits ⊢
  cases types with
  | none =>
    simp only [slots_exampleParts]
    simp [valueOf, List.lookup_cons, hdigits]
  | some T =>
    simp only [slots_exampleParts]
    simp [valueOf, List.lookup_cons, hdigits]
    tauto

/-- An example has a placeholder in it when one of its texts has. -/
theorem not_infix_example {name : List Char} (hname : isSlotName name = true)
    (types : Option (List Char)) (i : ℕ) (input output : List Char) :
    ¬ placeholder name <:+: simultaneousExample types i input output ↔
      ¬ placeholder name <:+: input ∧ ¬ placeholder name <:+: output ∧
        ∀ T ∈ types, ¬ placeholder name <:+: T := by
  have hslots := forall_slots_example types i input output (P := fun text =>
    ¬ placeholder name <:+: text) (not_placeholder_infix_digits name (i + 1))
  rw [← hslots, ← occurrences_eq_zero_iff (placeholder_ne_nil name), simultaneousExample,
    occurrences_fill hname _ (delimited_exampleParts types), List.sum_eq_zero_iff_forall_eq_nat]
  simp only [List.forall_mem_map, occurrences_eq_zero_iff (placeholder_ne_nil name)]

theorem not_infix_examplesText {name : List Char} (hname : isSlotName name = true)
    (types : Option (List Char)) (i : ℕ) (included : List (List Char × List Char)) :
    ¬ placeholder name <:+: examplesText (simultaneousExample types) i included ↔
      ∀ pair ∈ included, ¬ placeholder name <:+: pair.1 ∧ ¬ placeholder name <:+: pair.2 ∧
        ∀ T ∈ types, ¬ placeholder name <:+: T := by
  induction included generalizing i with
  | nil => simp [examplesText, placeholder]
  | cons pair included ih =>
    obtain ⟨input, output⟩ := pair
    have hfeed : '\n' ∉ placeholder name := fun hmem =>
      absurd (isPlaceholderChar_of_mem hname hmem) (by decide)
    have hapart : Apart (placeholder name)
        ('\n' :: examplesText (simultaneousExample types) (i + 1) included) := by
      rintro c ⟨⟩
      exact hfeed
    have hkept : ¬ placeholder name <+:
        '\n' :: examplesText (simultaneousExample types) (i + 1) included :=
      placeholder_not_at (by decide) _
    rw [List.forall_mem_cons, ← ih (i + 1), ← not_infix_example hname types i input output,
      ← occurrences_eq_zero_iff (placeholder_ne_nil name),
      ← occurrences_eq_zero_iff (placeholder_ne_nil name),
      ← occurrences_eq_zero_iff (placeholder_ne_nil name), examplesText,
      occurrences_append_apart (placeholder_ne_nil name) hapart, occurrences_cons_kept hkept,
      Nat.add_eq_zero_iff]

/-! ### Only placeholders are replaced -/

/-- The replacements of all the included examples find only the placeholders of their template. -/
def OnlyExamplePlaceholders (types : Option (List Char)) (i : ℕ) :
    List (List Char × List Char) → Prop
  | [] => True
  | (input, output) :: included =>
    OnlyPlaceholders (templateText (exampleParts types)) (templateText (exampleParts types))
      (examplePasses types i input output) ∧ OnlyExamplePlaceholders types (i + 1) included

theorem onlyExamplePlaceholders_iff (types : Option (List Char)) (i : ℕ)
    (included : List (List Char × List Char)) :
    OnlyExamplePlaceholders types i included ↔
      ∀ pair ∈ included, ¬ placeholder "output".toList <:+: pair.1 ∧
        ∀ T ∈ types, ¬ placeholder "entity_types".toList <:+: pair.1 ∧
          ¬ placeholder "output".toList <:+: T := by
  induction included generalizing i with
  | nil => exact iff_of_true trivial fun _ h => by cases h
  | cons pair included ih =>
    rw [List.forall_mem_cons, ← ih (i + 1), ← onlyPlaceholders_example types i pair.1 pair.2]
    rfl

/-- Then the examples fill their template. -/
theorem examplesText_eq (types : Option (List Char)) {i : ℕ}
    {included : List (List Char × List Char)} (h : OnlyExamplePlaceholders types i included) :
    examplesText (formatExample types) i included =
      examplesText (simultaneousExample types) i included := by
  induction included generalizing i with
  | nil => rfl
  | cons pair included ih =>
    obtain ⟨input, output⟩ := pair
    obtain ⟨hnames, hnodup⟩ := examplePasses_names types i input output
    rw [examplesText, examplesText, ih h.2]
    congr 1
    exact replaceAll_eq_fill (delimited_exampleParts types) hnames hnodup h.1

/-- Every replacement finds only placeholders if and only if no text that is put in has a
placeholder in it that is replaced later. -/
theorem onlyPlaceholders_iff_noPlaceholders (types : Option (List Char)) (language : List Char)
    (included : List (List Char × List Char)) :
    (OnlyExamplePlaceholders types 0 included ∧
      OnlyPlaceholders (templateText (promptParts types)) (templateText (promptParts types))
        (promptPasses types language (examplesText (formatExample types) 0 included))) ↔
      NoPlaceholders types included := by
  have hprompt : OnlyExamplePlaceholders types 0 included →
      (OnlyPlaceholders (templateText (promptParts types)) (templateText (promptParts types))
        (promptPasses types language (examplesText (formatExample types) 0 included)) ↔
      (∀ pair ∈ included, ¬ placeholder "language".toList <:+: pair.1 ∧
        ¬ placeholder "language".toList <:+: pair.2 ∧
          ∀ T ∈ types, ¬ placeholder "language".toList <:+: T) ∧
      ∀ T ∈ types, (∀ pair ∈ included, ¬ placeholder "entity_types".toList <:+: pair.1 ∧
        ¬ placeholder "entity_types".toList <:+: pair.2 ∧
          ∀ T ∈ types, ¬ placeholder "entity_types".toList <:+: T) ∧
        ¬ placeholder "language".toList <:+: T) := by
    intro h
    rw [onlyPlaceholders_prompt, examplesText_eq types h, not_infix_examplesText (by decide),
      not_infix_examplesText (by decide)]
  constructor
  · rintro ⟨hexamples, h⟩
    obtain ⟨hlanguage, htypes⟩ := (hprompt hexamples).mp h
    rw [onlyExamplePlaceholders_iff] at hexamples
    constructor
    · exact fun T hT => (htypes T hT).2
    · exact fun pair hpair => ⟨(hexamples pair hpair).1, (hlanguage pair hpair).1⟩
    · exact fun pair hpair => (hlanguage pair hpair).2.1
    · intro T hT pair hpair
      obtain ⟨hinput, houtput, hT'⟩ := (htypes T hT).1 pair hpair
      exact ⟨hinput, houtput, ((hexamples pair hpair).2 T hT).2, hT' T hT⟩
  · intro h
    have hexamples : OnlyExamplePlaceholders types 0 included := by
      rw [onlyExamplePlaceholders_iff]
      intro pair hpair
      refine ⟨(h.document pair hpair).1, fun T hT => ?_⟩
      obtain ⟨hinput, -, houtput, -⟩ := h.types T hT pair hpair
      exact ⟨hinput, houtput⟩
    refine ⟨hexamples, (hprompt hexamples).mpr ⟨fun pair hpair => ?_, fun T hT => ?_⟩⟩
    · exact ⟨(h.document pair hpair).2, h.output pair hpair, h.types_language⟩
    · refine ⟨fun pair hpair => ?_, h.types_language T hT⟩
      obtain ⟨hinput, houtput, -, -⟩ := h.types T hT pair hpair
      exact ⟨hinput, houtput, fun T' hT' => (h.types T' hT' pair hpair).2.2.2⟩

/-! ### What the filled prompt prints -/

theorem fill_append (values : List Char → List Char) (parts parts' : List TemplatePart) :
    fill values (parts ++ parts') = fill values parts ++ fill values parts' := by
  induction parts with
  | nil => rfl
  | cons part parts ih =>
    cases part with
    | text text => rw [List.cons_append, fill, fill, ih, List.append_assoc]
    | slot slot => rw [List.cons_append, fill, fill, ih, List.append_assoc]

/-- A template filled with literals is the literal of the template filled with what they mean. -/
theorem fill_escape {values meaning : List Char → List Char} {parts : List TemplatePart}
    (h : delimited parts = true)
    (hvalues : ∀ slot ∈ slots parts, values slot = escapePythonFormatLiteral (meaning slot)) :
    fill values parts = escapePythonFormatLiteral (fill meaning parts) := by
  induction parts with
  | nil => rfl
  | cons part parts ih =>
    cases part with
    | text text =>
      rw [delimited, Bool.and_eq_true] at h
      have htext : ∀ c ∈ text, c ≠ '{' ∧ c ≠ '}' := by
        intro c hc
        have := List.all_eq_true.mp h.1 c hc
        rw [Bool.and_eq_true, bne_iff_ne, bne_iff_ne] at this
        exact this
      rw [fill, fill, escape_append, escape_of_no_brace htext, ih h.2 hvalues]
    | slot slot =>
      rw [delimited, Bool.and_eq_true] at h
      rw [fill, fill, escape_append, hvalues slot (List.mem_cons_self ..),
        ih h.2 fun slot' hslot => hvalues slot' (List.mem_cons_of_mem slot hslot)]

def escapePair (pair : List Char × List Char) : List Char × List Char :=
  (escapePythonFormatLiteral pair.1, escapePythonFormatLiteral pair.2)

theorem simultaneousExample_escape (types : Option (List Char)) (i : ℕ)
    (input output : List Char) :
    simultaneousExample (types.map escapePythonFormatLiteral) i (escapePythonFormatLiteral input)
        (escapePythonFormatLiteral output) =
      escapePythonFormatLiteral (simultaneousExample types i input output) := by
  have hdigits := escape_of_no_brace (digits_no_brace (i + 1))
  have hparts : exampleParts (types.map escapePythonFormatLiteral) = exampleParts types := by
    cases types <;> rfl
  unfold simultaneousExample
  rw [hparts]
  refine fill_escape (delimited_exampleParts types) fun slot hslot => ?_
  rw [slots_exampleParts] at hslot
  unfold examplePasses
  generalize (toString (i + 1)).toList = digits at hdigits ⊢
  cases types with
  | none =>
    simp only [List.mem_cons, List.not_mem_nil, or_false] at hslot
    rcases hslot with rfl | rfl | rfl
    · exact hdigits.symm
    · rfl
    · rfl
  | some T =>
    simp only [List.mem_cons, List.not_mem_nil, or_false] at hslot
    rcases hslot with rfl | rfl | rfl | rfl
    · exact hdigits.symm
    · rfl
    · rfl
    · rfl

theorem examplesText_escape (types : Option (List Char)) (i : ℕ)
    (included : List (List Char × List Char)) :
    examplesText (simultaneousExample (types.map escapePythonFormatLiteral)) i
        (included.map escapePair) =
      escapePythonFormatLiteral (examplesText (simultaneousExample types) i included) := by
  induction included generalizing i with
  | nil => rfl
  | cons pair included ih =>
    obtain ⟨input, output⟩ := pair
    have hfeed : double '\n' = ['\n'] := by decide
    show simultaneousExample _ i (escapePythonFormatLiteral input)
      (escapePythonFormatLiteral output) ++ '\n' :: examplesText _ (i + 1) _ = _
    rw [examplesText, escape_append, escape_cons, simultaneousExample_escape, ih, hfeed]
    rfl

theorem delimited_of_append {front rest : List TemplatePart} (h : delimited (front ++ rest) = true) :
    delimited front = true := by
  induction front with
  | nil => rfl
  | cons part front ih =>
    cases part with
    | text text =>
      rw [List.cons_append, delimited, Bool.and_eq_true] at h
      rw [delimited, Bool.and_eq_true]
      exact ⟨h.1, ih h.2⟩
    | slot slot =>
      rw [List.cons_append, delimited, Bool.and_eq_true, Bool.and_eq_true] at h
      rw [delimited, Bool.and_eq_true, Bool.and_eq_true]
      refine ⟨⟨h.1.1, ?_⟩, ih h.2⟩
      rcases front with - | ⟨⟨- | ⟨c, text⟩⟩ | slot', front⟩
      · rfl
      · exact h.1.2
      · exact h.1.2
      · exact h.1.2

theorem delimited_of_append_right {front rest : List TemplatePart}
    (h : delimited (front ++ rest) = true) : delimited rest = true := by
  induction front with
  | nil => exact h
  | cons part front ih =>
    cases part with
    | text text | slot slot =>
      rw [List.cons_append, delimited, Bool.and_eq_true] at h
      exact ih h.2

theorem slots_append (front rest : List TemplatePart) :
    slots (front ++ rest) = slots front ++ slots rest := by
  induction front with
  | nil => rfl
  | cons part front ih =>
    cases part with
    | text text => exact ih
    | slot slot => exact congrArg (slot :: ·) ih

/-- The prompt up to its field, with the examples in it. -/
theorem promptParts_split (types : Option (List Char)) :
    ∃ front middle text after, promptParts types =
        (front ++ .slot "examples".toList :: (middle ++ [.text text])) ++
          [.slot inputText, .text after] ∧
      text.getLast? ≠ some '{' ∧ text ≠ [] ∧
      inputText ∉ slots (front ++ .slot "examples".toList :: (middle ++ [.text text])) := by
  cases types with
  | none =>
    refine ⟨[_, _, _, _, _], [], _, _, rfl, ?_, ?_, ?_⟩
    · decide +kernel
    · decide +kernel
    · decide
  | some types =>
    refine ⟨[_, _, _, _, _, _, _], [_, _], _, _, rfl, ?_, ?_, ?_⟩
    · decide +kernel
    · decide +kernel
    · decide

/-- An example up to its document. -/
theorem exampleParts_split (types : Option (List Char)) :
    ∃ front text rest, exampleParts types =
        (front ++ [.text (text ++ ['\n'])]) ++ .slot inputText :: rest := by
  cases types with
  | none => exact ⟨[_, _], ":\n\ntext:".toList, [_, _, _], rfl⟩
  | some types => exact ⟨[_, _, _, _], "]\ntext:".toList, [_, _, _], rfl⟩

/-- The text has the document in it, at the beginning of a line. -/
def Shows (text document : List Char) : Prop :=
  ∃ front rest, text = front ++ '\n' :: (document ++ rest)

theorem Shows.append {text document : List Char} (h : Shows text document)
    (front rest : List Char) : Shows (front ++ (text ++ rest)) document := by
  obtain ⟨front', rest', rfl⟩ := h
  exact ⟨front ++ front', rest' ++ rest, by simp⟩

theorem simultaneousExample_shows (types : Option (List Char)) (i : ℕ) (input output : List Char) :
    Shows (simultaneousExample types i input output) input := by
  obtain ⟨front, text, rest, hparts⟩ := exampleParts_split types
  have hinput : valueOf (examplePasses types i input output) inputText = input := by
    cases types <;> rfl
  unfold simultaneousExample
  generalize valueOf (examplePasses types i input output) = values at hinput ⊢
  rw [hparts, fill_append, fill_append]
  refine ⟨fill values front ++ text, fill values rest, ?_⟩
  simp [fill, hinput]

theorem examplesText_shows (types : Option (List Char)) (i : ℕ)
    {included : List (List Char × List Char)} {pair : List Char × List Char}
    (h : pair ∈ included) :
    Shows (examplesText (simultaneousExample types) i included) pair.1 := by
  induction included generalizing i with
  | nil => cases h
  | cons first included ih =>
    obtain ⟨input, output⟩ := first
    rw [examplesText]
    rcases List.mem_cons.mp h with rfl | h
    · exact (simultaneousExample_shows types i input output).append [] _
    · have := (ih (i + 1) h).append (simultaneousExample types i input output ++ ['\n']) []
      simpa using this

/-- The prompt is a literal, its field and a literal, and the first literal shows the documents. -/
theorem simultaneousPrompt_escape (types : Option (List Char)) (language : List Char)
    (included : List (List Char × List Char)) :
    ∃ before after, before.getLast? ≠ some '{' ∧
      (∀ pair ∈ included, Shows before pair.1) ∧
      simultaneousPrompt (types.map escapePythonFormatLiteral) (escapePythonFormatLiteral language)
          (included.map escapePair) =
        escapePythonFormatLiteral before ++
          (placeholder inputText ++ escapePythonFormatLiteral after) := by
  obtain ⟨front, middle, text, after, hparts, hlast, hne, hinput⟩ := promptParts_split types
  have hdelimited := delimited_promptParts types
  rw [hparts] at hdelimited
  have hbefore := delimited_of_append hdelimited
  generalize hmeaning : valueOf (promptPasses types language
    (examplesText (simultaneousExample types) 0 included)) = meaning
  refine ⟨fill meaning (front ++ .slot "examples".toList :: (middle ++ [.text text])), after,
    ?_, fun pair hpair => ?_, ?_⟩
  · rw [fill_append, fill, fill_append, fill, fill, List.append_nil, ← List.append_assoc,
      ← List.append_assoc, List.getLast?_append_of_ne_nil _ hne]
    exact hlast
  · have hexamples : meaning "examples".toList =
        examplesText (simultaneousExample types) 0 included := by
      rw [← hmeaning]
      cases types <;> rfl
    rw [fill_append, fill, hexamples]
    exact (examplesText_shows types 0 hpair).append _ _
  · have hescaped : promptParts (types.map escapePythonFormatLiteral) = promptParts types := by
      cases types <;> rfl
    have hslot : ∀ slot ∈ slots (front ++ .slot "examples".toList :: (middle ++ [.text text])),
        valueOf (promptPasses (types.map escapePythonFormatLiteral)
          (escapePythonFormatLiteral language)
          (escapePythonFormatLiteral (examplesText (simultaneousExample types) 0 included))) slot =
        escapePythonFormatLiteral (meaning slot) := by
      intro slot hslot
      have hmem : slot ∈ slots (promptParts types) := by
        rw [hparts, slots_append]
        exact List.mem_append_left _ hslot
      have hne : slot ≠ inputText := fun heq => hinput (heq ▸ hslot)
      rw [slots_promptParts] at hmem
      rw [← hmeaning]
      cases types with
      | none =>
        simp only [List.mem_cons, List.not_mem_nil, or_false] at hmem
        rcases hmem with rfl | rfl | rfl | rfl
        · rfl
        · rfl
        · rfl
        · exact absurd rfl hne
      | some T =>
        simp only [List.mem_cons, List.not_mem_nil, or_false] at hmem
        rcases hmem with rfl | rfl | rfl | rfl | rfl | rfl
        · rfl
        · rfl
        · rfl
        · rfl
        · rfl
        · exact absurd rfl hne
    have hfield : ∀ language examplesPrompt,
        valueOf (promptPasses (types.map escapePythonFormatLiteral) language examplesPrompt)
          inputText = placeholder inputText := by
      intro language examplesPrompt
      cases types <;> rfl
    have hafter : ∀ c ∈ after, c ≠ '{' ∧ c ≠ '}' := by
      intro c hc
      have htext : delimited [.text after] = true := by
        have hrest := delimited_of_append_right hdelimited
        rw [delimited, Bool.and_eq_true] at hrest
        exact hrest.2
      rw [delimited, Bool.and_eq_true] at htext
      have := List.all_eq_true.mp htext.1 c hc
      rw [Bool.and_eq_true, bne_iff_ne, bne_iff_ne] at this
      exact this
    unfold simultaneousPrompt
    rw [examplesText_escape, hescaped, hparts, fill_append, fill_escape hbefore hslot,
      escape_of_no_brace hafter]
    simp only [fill, hfield, List.append_nil]

/-! ### Newlines of the documents -/

theorem newlines_line_feed (front rest : List Char) :
    ∃ front', newlines (front ++ '\n' :: rest) = front' ++ '\n' :: newlines rest := by
  induction front with
  | nil => exact ⟨[], newlines_cons (by decide) rest⟩
  | cons c front ih =>
    obtain ⟨front', hfront⟩ := ih
    rw [List.cons_append, newlines, hfront]
    split_ifs
    · exact ⟨front', rfl⟩
    · exact ⟨'\n' :: front', rfl⟩
    · exact ⟨c :: front', rfl⟩

theorem return_not_mem_newlines (text : List Char) : '\r' ∉ newlines text := by
  induction text with
  | nil => exact List.not_mem_nil
  | cons c text ih =>
    rw [newlines]
    split_ifs with hc
    · exact ih
    · rw [List.mem_cons, not_or]
      exact ⟨by decide, ih⟩
    · rw [List.mem_cons, not_or]
      exact ⟨Ne.symm hc, ih⟩

/-- A document without carriage returns survives the normalisation of newlines. -/
theorem Shows.newlines {text document : List Char} (h : Shows text document)
    (hreturn : '\r' ∉ document) : document <:+: newlines text := by
  obtain ⟨front, rest, rfl⟩ := h
  obtain ⟨front', hfront⟩ := newlines_line_feed front (document ++ rest)
  rw [hfront, newlines_append hreturn]
  exact ⟨front' ++ ['\n'], GraphLoom.Prompts.newlines rest, by simp⟩

/-! ### Literal types, examples and languages -/

theorem exists_meanings {texts : List (List Char)} (h : ∀ text ∈ texts, IsFormatLiteral text) :
    ∃ meanings : List (List Char), texts = meanings.map escapePythonFormatLiteral := by
  induction texts with
  | nil => exact ⟨[], rfl⟩
  | cons text texts ih =>
    rw [List.forall_mem_cons] at h
    obtain ⟨meanings, rfl⟩ := ih h.2
    obtain ⟨meaning, rfl⟩ := isFormatLiteral_iff.mp h.1
    exact ⟨meaning :: meanings, rfl⟩

theorem joinTypes_escape (types : List (List Char)) :
    joinTypes (types.map escapePythonFormatLiteral) =
      escapePythonFormatLiteral (joinTypes types) := by
  unfold joinTypes
  have hseparator : escapePythonFormatLiteral [',', ' '] = [',', ' '] := by decide
  induction types with
  | nil => rfl
  | cons type types ih =>
    cases types with
    | nil => rw [List.map_singleton, List.intercalate_singleton, List.intercalate_singleton]
    | cons next types =>
      rw [List.map_cons, List.map_cons, List.intercalate_cons_cons, List.intercalate_cons_cons,
        escape_append, escape_append, hseparator, ← ih, List.map_cons]

/-! ### The prompt reproduces its documents -/

section Faithful

variable (tera : Tera) (origin : PromptSource) (types : Option (List Char)) (language : List Char)
  (included : List (List Char × List Char)) (prompt : List Char)

/-- The documents of the examples as the loader escapes them. -/
def escapeDocuments : List (List Char × List Char) :=
  included.map fun pair => (escapePythonFormatLiteral pair.1, pair.2)

/-- What a tuned prompt with the included documents and outputs promises. -/
structure Faithful : Prop where
  /-- No placeholder of a document, an example or the types is replaced. -/
  onlyExamplePlaceholders : OnlyExamplePlaceholders types 0 (escapeDocuments included)
  onlyPlaceholders : OnlyPlaceholders (templateText (promptParts types))
    (templateText (promptParts types)) (promptPasses types language
      (examplesText (formatExample types) 0 (escapeDocuments included)))
  /-- The prompt is the substitution of all the placeholders at once. -/
  simultaneous : prompt = simultaneousPrompt types language (escapeDocuments included)
  /-- It loads, and shows every document whatever the input text. -/
  loads : ∃ template, buildTemplate tera .extractGraph prompt origin = .ok template ∧
    ∀ context input, context "input_text" = some input → (context "entity_types").isSome →
      ∃ bound text, template.bind context = .ok bound ∧ bound.render = .ok text ∧
        ∀ pair ∈ included, pair.1 <:+: text

end Faithful

theorem noPlaceholders_escapeDocuments {types : Option (List Char)}
    {included : List (List Char × List Char)} :
    NoPlaceholders types (escapeDocuments included) ↔ NoPlaceholders types included := by
  have hpair : ∀ {P : List Char × List Char → Prop}, (∀ pair ∈ escapeDocuments included, P pair) ↔
      ∀ pair ∈ included, P (escapePythonFormatLiteral pair.1, pair.2) := by
    intro P
    exact List.forall_mem_map
  have houtput := placeholder_infix_escape_iff
    (show isSlotName "output".toList = true by decide)
  have hlanguage := placeholder_infix_escape_iff
    (show isSlotName "language".toList = true by decide)
  have htypes := placeholder_infix_escape_iff
    (show isSlotName "entity_types".toList = true by decide)
  constructor
  · rintro ⟨h1, h2, h3, h4⟩
    simp only [hpair, houtput, hlanguage, htypes] at h2 h3 h4
    exact ⟨h1, h2, h3, h4⟩
  · rintro ⟨h1, h2, h3, h4⟩
    refine ⟨h1, ?_, ?_, ?_⟩ <;> simp only [hpair, houtput, hlanguage, htypes] <;> assumption

/-- A tuned prompt reproduces its documents if and only if no text that is put in has a placeholder
in it that is replaced later, and no document has a carriage return. -/
theorem createExtractGraphPrompt_faithful_iff {tera : Tera} (documented : tera.Documented)
    (origin : PromptSource) {entityTypes : Option (List (List Char))}
    {docs examples : List (List Char)} {language : List Char} {maxTokenCount : ℕ}
    {tokenizer : Tokenizer} {minExamplesRequired k : ℕ} {examplesPrompt prompt : List Char}
    (htypes : ∀ types ∈ entityTypes, ∀ type ∈ types, IsFormatLiteral type)
    (hexamples : ∀ example' ∈ examples, IsFormatLiteral example')
    (hlanguage : IsFormatLiteral language)
    (hloop : createExamples entityTypes (docs.map escapePythonFormatLiteral) examples maxTokenCount
      tokenizer minExamplesRequired = .ok (k, examplesPrompt))
    (hprompt : createExtractGraphPrompt entityTypes (docs.map escapePythonFormatLiteral) examples
      language maxTokenCount tokenizer minExamplesRequired = .ok prompt) :
    Faithful tera origin (entityTypes.map joinTypes) language ((docs.zip examples).take k) prompt ↔
      NoPlaceholders (entityTypes.map joinTypes) ((docs.zip examples).take k) ∧
        ∀ pair ∈ (docs.zip examples).take k, '\r' ∉ pair.1 := by
  generalize hincluded : (docs.zip examples).take k = included
  have hescaped : ((docs.map escapePythonFormatLiteral).zip examples).take k =
      escapeDocuments included := by
    rw [← hincluded, escapeDocuments, List.zip_map_left, List.map_take]
    rfl
  have hloop' := createExamples_spec hloop
  rw [createExtractGraphPrompt_spec hloop] at hprompt
  rw [hescaped] at hloop'
  obtain ⟨types', htypes'⟩ : ∃ types' : Option (List Char),
      entityTypes.map joinTypes = types'.map escapePythonFormatLiteral := by
    cases entityTypes with
    | none => exact ⟨none, rfl⟩
    | some types =>
      obtain ⟨meanings, rfl⟩ := exists_meanings (htypes types rfl)
      exact ⟨some (joinTypes meanings), congrArg some (joinTypes_escape meanings)⟩
  obtain ⟨language', rfl⟩ := isFormatLiteral_iff.mp hlanguage
  obtain ⟨examples', rfl⟩ := exists_meanings hexamples
  have hincluded' : escapeDocuments included = ((docs.zip examples').take k).map escapePair := by
    rw [← hincluded, escapeDocuments, List.zip_map_right, ← List.map_take, List.map_map]
    rfl
  have hdocuments : ∀ {P : List Char → Prop}, (∀ pair ∈ included, P pair.1) ↔
      ∀ pair ∈ (docs.zip examples').take k, P pair.1 := by
    intro P
    rw [← hincluded, List.zip_map_right, ← List.map_take]
    exact List.forall_mem_map
  obtain ⟨before, after, hlast, hshows, hsimultaneous⟩ :=
    simultaneousPrompt_escape types' language' ((docs.zip examples').take k)
  rw [← htypes', ← hincluded'] at hsimultaneous
  have hclean := onlyPlaceholders_iff_noPlaceholders (entityTypes.map joinTypes)
    (escapePythonFormatLiteral language') (escapeDocuments included)
  rw [noPlaceholders_escapeDocuments] at hclean
  have hfill : NoPlaceholders (entityTypes.map joinTypes) included →
      prompt = simultaneousPrompt (entityTypes.map joinTypes)
        (escapePythonFormatLiteral language') (escapeDocuments included) := by
    intro h
    obtain ⟨hexample, hpasses⟩ := hclean.mpr h
    obtain ⟨hnames, hnodup⟩ := promptPasses_names (entityTypes.map joinTypes)
      (escapePythonFormatLiteral language') examplesPrompt
    rw [← Except.ok.inj hprompt]
    rw [← hloop'] at hpasses
    rw [replaceAll_eq_fill (delimited_promptParts _) hnames hnodup hpasses, hloop',
      examplesText_eq _ hexample]
    rfl
  obtain ⟨template, hbuild, hrender⟩ := buildTemplate_literal documented hlast after origin
  rw [← hsimultaneous] at hbuild
  constructor
  · intro h
    have hno := hclean.mp ⟨h.onlyExamplePlaceholders, h.onlyPlaceholders⟩
    refine ⟨hno, fun pair hpair hreturn => ?_⟩
    obtain ⟨template', hbuild', hloads⟩ := h.loads
    rw [h.simultaneous, hbuild] at hbuild'
    obtain rfl := Except.ok.inj hbuild'
    -- with no input text nothing of what is printed has a carriage return
    obtain ⟨bound, hbind, htext⟩ := hrender (fun _ => some []) [] rfl rfl
    obtain ⟨bound', text', hbind', htext', hall⟩ := hloads (fun _ => some []) [] rfl rfl
    rw [hbind] at hbind'
    obtain rfl := Except.ok.inj hbind'
    rw [htext] at htext'
    obtain rfl := Except.ok.inj htext'
    have hmem := (hall pair hpair).subset hreturn
    rw [List.nil_append, List.mem_append] at hmem
    exact hmem.elim (return_not_mem_newlines before) (return_not_mem_newlines after)
  · rintro ⟨hno, hreturn⟩
    obtain ⟨hexample, hpasses⟩ := hclean.mpr hno
    refine ⟨hexample, hpasses, hfill hno, template, ?_, fun context input hinput hcontext => ?_⟩
    · rw [hfill hno]
      exact hbuild
    · obtain ⟨bound, hbind, htext⟩ := hrender context input hinput hcontext
      have hreturn' := (hdocuments (P := fun document => '\r' ∉ document)).mp hreturn
      refine ⟨bound, _, hbind, htext, (hdocuments (P := fun document => document <:+: _)).mpr ?_⟩
      intro pair hpair
      have hinfix := (hshows pair hpair).newlines (hreturn' pair hpair)
      exact hinfix.trans (List.prefix_append _ _).isInfix

/-! ### Documents with braces -/

/-- A document with braces that are no placeholder. -/
def sampleIncluded : List (List Char × List Char) :=
  [("a \x7bset\x7d".toList, "out".toList)]

/-- A document that speaks of a placeholder. -/
def placeholderIncluded : List (List Char × List Char) :=
  [("write \x7blanguage\x7d".toList, "out".toList)]

def sampleLanguage : List Char := "English".toList

theorem sample_literal {text : List Char} (h : ∀ c ∈ text, c ≠ '{' ∧ c ≠ '}') :
    IsFormatLiteral text :=
  isFormatLiteral_iff.mpr ⟨text, (escape_of_no_brace h).symm⟩

/-- The one example of a document is included. -/
theorem createExamples_sample (document : List Char) :
    createExamples none ([document].map escapePythonFormatLiteral) ["out".toList] 0
        (fun _ => .ok 0) 1 =
      .ok (1, [] ++ untypedExample 0 (escapePythonFormatLiteral document) "out".toList ++ ['\n']) :=
  rfl

theorem createExtractGraphPrompt_faithful_sample :
    ∃ prompt, createExtractGraphPrompt none
        ([("a \x7bset\x7d".toList)].map escapePythonFormatLiteral) ["out".toList] sampleLanguage 0
        (fun _ => .ok 0) 1 = .ok prompt ∧
      Faithful sampleTera .inline none sampleLanguage sampleIncluded prompt := by
  have hloop := createExamples_sample "a \x7bset\x7d".toList
  obtain ⟨prompt, hprompt⟩ : ∃ prompt, createExtractGraphPrompt none
      ([("a \x7bset\x7d".toList)].map escapePythonFormatLiteral) ["out".toList] sampleLanguage 0
      (fun _ => .ok 0) 1 = .ok prompt := ⟨_, createExtractGraphPrompt_spec hloop⟩
  have hlanguage : IsFormatLiteral sampleLanguage := sample_literal (List.all_iff_forall_prop.mp (by decide))
  have hexamples : ∀ example' ∈ ["out".toList], IsFormatLiteral example' := by
    rw [List.forall_mem_singleton]
    exact sample_literal (List.all_iff_forall_prop.mp (by decide))
  have hno : NoPlaceholders none sampleIncluded := by
    constructor
    · rintro T ⟨⟩
    · rw [sampleIncluded, List.forall_mem_singleton]
      constructor
      · exact (occurrences_eq_zero_iff (placeholder_ne_nil _)).mp (by decide)
      · exact (occurrences_eq_zero_iff (placeholder_ne_nil _)).mp (by decide)
    · rw [sampleIncluded, List.forall_mem_singleton]
      exact (occurrences_eq_zero_iff (placeholder_ne_nil _)).mp (by decide)
    · rintro T ⟨⟩
  have hreturn : ∀ pair ∈ sampleIncluded, '\r' ∉ pair.1 := by decide
  have htypes : ∀ types ∈ (none : Option (List (List Char))), ∀ type ∈ types,
      IsFormatLiteral type := by
    rintro types ⟨⟩
  have hiff := createExtractGraphPrompt_faithful_iff sampleTera_documented .inline htypes hexamples
    hlanguage hloop hprompt
  exact ⟨prompt, hprompt, hiff.mpr ⟨hno, hreturn⟩⟩

/-- The placeholder in the document is replaced. -/
theorem createExtractGraphPrompt_rewrites :
    ∃ prompt, createExtractGraphPrompt none
        ([("write \x7blanguage\x7d".toList)].map escapePythonFormatLiteral) ["out".toList]
        sampleLanguage 0 (fun _ => .ok 0) 1 = .ok prompt ∧
      ¬ Faithful sampleTera .inline none sampleLanguage placeholderIncluded prompt := by
  have hloop := createExamples_sample "write \x7blanguage\x7d".toList
  refine ⟨_, createExtractGraphPrompt_spec hloop, fun h => ?_⟩
  have hno := (onlyPlaceholders_iff_noPlaceholders none sampleLanguage
    (escapeDocuments placeholderIncluded)).mp ⟨h.onlyExamplePlaceholders, h.onlyPlaceholders⟩
  have hdocument := (noPlaceholders_escapeDocuments.mp hno).document _ (List.mem_singleton_self _)
  exact hdocument.2 ⟨"write ".toList, [], by decide⟩

end GraphLoom.PromptTune
