import GraphLoom.Graph.Extraction
import GraphLoom.Llm.Parser
import GraphLoom.Prompts.Prompt

/-!
# Extracting the graph of one text unit

The model is asked for the records of a text unit, and then, a bounded number of times, for those
that it has missed.  The texts of all its answers are put one behind the other and parsed together.

A model answers a request; as the dialogue of a text unit grows, it is never sent the same request
twice.
-/

namespace GraphLoom.Graph

open Llm Prompts

def continuePrompt : String :=
  "MANY entities and relationships were missed in the last extraction. Remember to ONLY emit " ++
  "entities that match any of the previously extracted types. Add them below using the same " ++
  "format:\n"

def loopPrompt : String :=
  "It appears some entities and relationships may have still been missed. Answer Y if there " ++
  "are still entities or relationships that need to be added, or N if there are none. Please " ++
  "answer with a single letter Y or N.\n"

/-- The errors of `GraphLoomError` that the extraction of one text unit ends with. -/
inductive TextUnitError where
  | prompt (source : PromptRender)
  | llm (source : LlmError)
deriving DecidableEq, Repr

variable {γ ω : Type}

/-- Ask the model, and take the text of its answer. -/
def completeText (model : CompletionModel γ) (content : γ → Except LlmError String)
    (messages : List ChatMessage) : Except LlmError String := do
  let response ← model.complete (.new messages)
  content response.wire

/-- The rounds of gleaning that are left, with the dialogue and the output so far. -/
def glean (complete : List ChatMessage → Except LlmError String) :
    ℕ → List ChatMessage → String → Except LlmError (List ChatMessage × String)
  | 0, messages, output => .ok (messages, output)
  | remaining + 1, messages, output => do
    let messages := messages ++ [.user continuePrompt]
    let response ← complete messages
    let output := output ++ response
    let messages := messages ++ [.assistant response]
    if remaining = 0 then .ok (messages, output)
    else do
      let messages := messages ++ [.user loopPrompt]
      -- the answer does not become part of the dialogue
      let answer ← complete messages
      if answer ≠ "Y" then .ok (messages, output) else glean complete remaining messages output

/-- The dialogue of a text unit, and the output that is parsed. -/
def converse (complete : List ChatMessage → Except LlmError String) (prompt : String)
    (maxGleanings : ℕ) : Except LlmError (List ChatMessage × String) := do
  let messages := [ChatMessage.user prompt]
  let output ← complete messages
  glean complete maxGleanings (messages ++ [.assistant output]) output

def bindExtractionPrompt {tera : Tera} (template : PromptTemplate tera) (inputText : String)
    (entityTypes : List String) : Except PromptRender (Prompt tera) :=
  template.bind fun name =>
    if name = "entity_types" then some (",".intercalate entityTypes).toList
    else if name = "input_text" then some inputText.toList
    else none

def RawEntityRow.ofRecord (entity : Llm.EntityRecord) : RawEntityRow where
  title := entity.title
  entityType := entity.entityType
  description := entity.description
  sourceId := entity.sourceId

def RawRelationshipRow.ofRecord (relationship : Llm.RelationshipRecord ω) : RawRelationshipRow ω where
  source := relationship.source
  target := relationship.target
  description := relationship.description
  sourceId := relationship.sourceId
  weight := relationship.weight

/-- The rows of what the parser gives. -/
def rawRecords (parsed : GraphExtraction ω) : List RawEntityRow × List (RawRelationshipRow ω) :=
  (parsed.entities.map .ofRecord, parsed.relationships.map .ofRecord)

/-- The prompt of a text unit, whose text is stripped. -/
def extractionPrompt {tera : Tera} (template : PromptTemplate tera) (entityTypes : List String)
    (textUnit : TextUnitInput) : Except PromptRender String := do
  let prompt ← bindExtractionPrompt template (trim textUnit.text) entityTypes
  let text ← prompt.render
  return String.ofList text

def extractTextUnitGraph [One ω] {tera : Tera} (tools : GraphTools ω) (model : CompletionModel γ)
    (content : γ → Except LlmError String) (template : PromptTemplate tera)
    (entityTypes : List String) (textUnit : TextUnitInput) (maxGleanings : ℕ) :
    Except TextUnitError (List RawEntityRow × List (RawRelationshipRow ω)) := do
  let prompt ← (extractionPrompt template entityTypes textUnit).mapError .prompt
  let (_, output) ← (converse (completeText model content) prompt maxGleanings).mapError .llm
  return rawRecords (parseGraphTuples tools output textUnit.id)

end GraphLoom.Graph
