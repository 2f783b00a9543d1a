import Mathlib.Data.Int.Init
import GraphLoom.Foundation.Substitution

/-!
# The tuned extraction prompt

The prompt is assembled from a template, the examples and their documents by one replacement of a
text after the other.
-/

namespace GraphLoom.PromptTune

open GraphLoom.Foundation

/-! ### Templates -/

def lines (texts : List String) : List Char := texts.flatMap String.toList

/-- `extract_graph.txt`, without the newline at its end. -/
def graphExtractionParts : List TemplatePart :=
  [ .text (lines [
      "\n-Goal-\nGiven a text document that is potentially relevant to ",
      "this activity and a list of entity types, identify all ",
      "entities of those types from the text and all ",
      "relationships among the identified entities.\n\n-Steps-\n",
      "1. Identify all entities. For each identified entity, ",
      "extract the following information:\n",
      "- entity_name: Name of the entity, capitalized\n",
      "- entity_type: One of the following types: ["]),
    .slot "entity_types".toList,
    .text (lines [
      "]\n- entity_description: Comprehensive description of the ",
      "entity's attributes and activities\nFormat each entity as ",
      "(\"entity\"<|><entity_name><|><entity_type><|><",
      "entity_description>)\n\n",
      "2. From the entities identified in step 1, identify all ",
      "pairs of (source_entity, target_entity) that are *clearly ",
      "related* to each other.\n",
      "For each pair of related entities, extract the following ",
      "information:\n",
      "- source_entity: name of the source entity, as identified ",
      "in step 1\n",
      "- target_entity: name of the target entity, as identified ",
      "in step 1\n",
      "- relationship_description: explanation as to why you ",
      "think the source entity and the target entity are related ",
      "to each other\n",
      "- relationship_strength: an integer score between 1 to ",
      "10, indicating strength of the relationship between the ",
      "source entity and target entity\nFormat each relationship as ",
      "(\"relationship\"<|><source_entity><|><target_e",
      "ntity><|><relationship_description><|><relationship_strength>)\n",
      "\n3. Return output in "]),
    .slot "language".toList,
    .text (lines [
      " as a single list of all the entities and relationships ",
      "identified in steps 1 and 2. Use **##** as the list delimiter.\n",
      "\n4. If you have to translate into "]),
    .slot "language".toList,
    .text (lines [
      ", just translate the descriptions, nothing else!\n\n",
      "5. When finished, output <|COMPLETE|>.\n\n-Examples-\n",
      "######################\n"]),
    .slot "examples".toList,
    .text "\n\n-Real Data-\n######################\nentity_types: [".toList,
    .slot "entity_types".toList,
    .text "]\ntext: ".toList,
    .slot "input_text".toList,
    .text "\n######################\noutput:".toList ]

/-- `extract_graph_untyped.txt`. -/
def untypedGraphExtractionParts : List TemplatePart :=
  [ .text (lines [
      "\n-Goal-\nGiven a text document that is potentially relevant to ",
      "this activity, first identify all entities needed from ",
      "the text in order to capture the information and ideas in ",
      "the text.\n",
      "Next, report all relationships among the identified entities.\n",
      "\n-Steps-\n",
      "1. Identify all entities. For each identified entity, ",
      "extract the following information:\n",
      "- entity_name: Name of the entity, capitalized\n",
      "- entity_type: Suggest several labels or categories for ",
      "the entity. The categories should not be specific, but ",
      "should be as general as possible.\n",
      "- entity_description: Comprehensive description of the ",
      "entity's attributes and activities\nFormat each entity as ",
      "(\"entity\"<|><entity_name><|><entity_type><|><",
      "entity_description>)\n\n",
      "2. From the entities identified in step 1, identify all ",
      "pairs of (source_entity, target_entity) that are *clearly ",
      "related* to each other.\n",
      "For each pair of related entities, extract the following ",
      "information:\n",
      "- source_entity: name of the source entity, as identified ",
      "in step 1\n",
      "- target_entity: name of the target entity, as identified ",
      "in step 1\n",
      "- relationship_description: explanation as to why you ",
      "think the source entity and the target entity are related ",
      "to each other\n",
      "- relationship_strength: a numeric score indicating ",
      "strength of the relationship between the source entity ",
      "and target entity\nFormat each relationship as ",
      "(\"relationship\"<|><source_entity><|><target_e",
      "ntity><|><relationship_description><|><relationship_strength>)\n",
      "\n3. Return output in "]),
    .slot "language".toList,
    .text (lines [
      " as a single list of all the entities and relationships ",
      "identified in steps 1 and 2. Use **##** as the list delimiter.\n",
      "\n4. If you have to translate into "]),
    .slot "language".toList,
    .text (lines [
      ", just translate the descriptions, nothing else!\n\n",
      "5. When finished, output <|COMPLETE|>.\n\n-Examples-\n",
      "######################\n"]),
    .slot "examples".toList,
    .text "\n\n-Real Data-\n######################\ntext: ".toList,
    .slot "input_text".toList,
    .text "\n######################\noutput:\n".toList ]

/-- `extract_graph_example.txt`. -/
def exampleExtractionParts : List TemplatePart :=
  [ .text "\nExample ".toList,
    .slot "n".toList,
    .text ":\n\nentity_types: [".toList,
    .slot "entity_types".toList,
    .text "]\ntext:\n".toList,
    .slot "input_text".toList,
    .text "\n------------------------\noutput:\n".toList,
    .slot "output".toList,
    .text "\n#############################\n".toList ]

/-- `extract_graph_untyped_example.txt`. -/
def untypedExampleExtractionParts : List TemplatePart :=
  [ .text "\nExample ".toList,
    .slot "n".toList,
    .text ":\n\ntext:\n".toList,
    .slot "input_text".toList,
    .text "\n------------------------\noutput:\n".toList,
    .slot "output".toList,
    .text "\n#############################\n".toList ]

def graphExtractionPromptSource : List Char := templateText graphExtractionParts ++ ['\n']

def untypedGraphExtractionPrompt : List Char := templateText untypedGraphExtractionParts

def exampleExtractionTemplate : List Char := templateText exampleExtractionParts

def untypedExampleExtractionTemplate : List Char := templateText untypedExampleExtractionParts

/-- Remove the newline at the end of a stored constant. -/
def withoutStorageLf (source : List Char) : List Char :=
  if source.getLast? = some '\n' then source.dropLast else source

/-! ### Assembly -/

/-- Escape braces for Python's `str.format`. -/
def escapePythonFormatLiteral (input : List Char) : List Char :=
  replace ['}'] ['}', '}'] (replace ['{'] ['{', '{'] input)

/-- A tokenizer counts the tokens of a text, or fails. -/
abbrev Tokenizer := List Char → Except String ℕ

/-- `usize as i64` and wrapping `i64` subtraction. -/
def wrapI64 (i : ℤ) : ℤ := i.bmod (2 ^ 64)

def joinTypes (types : List (List Char)) : List Char := [',', ' '].intercalate types

/-- An example of the typed template. -/
def typedExample (types : List Char) (i : ℕ) (input output : List Char) : List Char :=
  replace "\x7boutput\x7d".toList output
    (replace "\x7bentity_types\x7d".toList types
      (replace "\x7binput_text\x7d".toList input
        (replace "\x7bn\x7d".toList (toString (i + 1)).toList exampleExtractionTemplate)))

/-- An example of the untyped template. -/
def untypedExample (i : ℕ) (input output : List Char) : List Char :=
  replace "\x7boutput\x7d".toList output
    (replace "\x7binput_text\x7d".toList input
      (replace "\x7bn\x7d".toList (toString (i + 1)).toList untypedExampleExtractionTemplate))

/-- The loop over the examples, from index `i` on.  It returns the index at which it stops and the
examples that it has pushed. -/
def exampleLoop (tokenizer : Tokenizer) (minExamplesRequired : ℕ)
    (format : ℕ → List Char → List Char → List Char) (i : ℕ) (tokensLeft : ℤ)
    (examplesPrompt : List Char) :
    (examples docs : List (List Char)) → Except String (ℕ × List Char)
  | output :: examples, input :: docs => do
    let exampleTokens ← tokenizer (format i input output)
    if minExamplesRequired ≤ i ∧ tokensLeft < wrapI64 exampleTokens then
      return (i, examplesPrompt)
    else
      exampleLoop tokenizer minExamplesRequired format (i + 1)
        (wrapI64 (tokensLeft - wrapI64 exampleTokens))
        (examplesPrompt ++ format i input output ++ ['\n']) examples docs
  | _, _ => return (i, examplesPrompt)

section Create

variable (entityTypes : Option (List (List Char))) (docs examples : List (List Char))
  (language : List Char) (maxTokenCount : ℕ) (tokenizer : Tokenizer) (minExamplesRequired : ℕ)

/-- The part of `create_extract_graph_prompt` up to the end of its loop. -/
def createExamples : Except String (ℕ × List Char) :=
  match entityTypes with
  | some types => do
    let rawTypes := joinTypes types
    let promptTokens ← tokenizer (withoutStorageLf graphExtractionPromptSource)
    let entityTokens ← tokenizer rawTypes
    let tokensLeft :=
      wrapI64 (wrapI64 (wrapI64 maxTokenCount - wrapI64 promptTokens) - wrapI64 entityTokens)
    exampleLoop tokenizer minExamplesRequired (typedExample rawTypes) 0 tokensLeft [] examples docs
  | none => exampleLoop tokenizer minExamplesRequired untypedExample 0 0 [] examples docs

def createExtractGraphPrompt : Except String (List Char) := do
  let (_, examplesPrompt) ←
    createExamples entityTypes docs examples maxTokenCount tokenizer minExamplesRequired
  match entityTypes with
  | some types =>
    return replace "\x7blanguage\x7d".toList language
      (replace "\x7bentity_types\x7d".toList (joinTypes types)
        (replace "\x7bexamples\x7d".toList examplesPrompt
          (withoutStorageLf graphExtractionPromptSource)))
  | none =>
    return replace "\x7blanguage\x7d".toList language
      (replace "\x7bexamples\x7d".toList examplesPrompt untypedGraphExtractionPrompt)

end Create

end GraphLoom.PromptTune
