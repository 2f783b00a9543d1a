import GraphLoom.Llm.Types
import Mathlib.Data.String.Basic

/-!
# Summarizing descriptions

The distinct descriptions of an entity or a relationship are given to the model in prompts, as many
as the budget of tokens takes, with the answer to the last prompt in front of the next ones.

The template, the tokenizer and the model are parameters; what the model answers may depend on what
it has been asked before.
-/

namespace GraphLoom.Graph

open Llm Std

variable {ε : Type}

/-- One request to the model: the descriptions of its prompt, the prompt, and the answer. -/
structure SummarizationCall where
  descriptions : List String
  prompt : String
  response : String
deriving DecidableEq, Repr

structure SummarizeContext (ε : Type) where
  /-- the answer to a request, behind those that were made before -/
  complete : List SummarizationCall → CompletionRequest → Except ε String
  /-- the prompt of an entity name, a list of descriptions and a length -/
  renderTemplate : String → String → ℕ → Except ε String
  /-- `serde_json::to_string` of a text -/
  jsonString : String → String
  count : String → Except ε ℕ
  maxLength : ℕ
  maxInputTokens : ℕ

namespace SummarizeContext

variable (context : SummarizeContext ε) (entityNameJson : String)

def pythonJsonStringArray (values : List String) : String :=
  "[" ++ ", ".intercalate (values.map context.jsonString) ++ "]"

def renderSummarizationPrompt (descriptions : List String) : Except ε String :=
  context.renderTemplate entityNameJson (context.pythonJsonStringArray descriptions)
    context.maxLength

/-- The loop over the descriptions with their indices, of `count` in all.  Its result is the last
answer; the calls are those made on the way. -/
def summarizeLoop (promptBudget : String) (count : ℕ) :
    List (String × ℕ) → ℕ → List String → List SummarizationCall → String →
      Except ε (List SummarizationCall × String)
  | [], _, _, calls, result => .ok (calls, result)
  | (description, index) :: rest, usableTokens, collected, calls, result => do
    let tokens ← context.count description
    let usableTokens := usableTokens - tokens
    let collected := collected ++ [description]
    if (usableTokens = 0 ∧ 1 < collected.length) ∨ index = count - 1 then
      let prompt ← context.renderSummarizationPrompt entityNameJson collected
      let response ← context.complete calls (.new [.user prompt])
      let calls := calls ++ [⟨collected, prompt, response⟩]
      if index ≠ count - 1 then
        let budgetTokens ← context.count promptBudget
        let responseTokens ← context.count response
        summarizeLoop promptBudget count rest
          (context.maxInputTokens - budgetTokens - responseTokens) [response] calls response
      else summarizeLoop promptBudget count rest usableTokens collected calls response
    else summarizeLoop promptBudget count rest usableTokens collected calls result

/-- `BTreeSet` of the descriptions, in its order. -/
def distinctDescriptions (descriptions : List String) : List String :=
  (ExtTreeSet.ofList descriptions).toList

/-- The calls to the model, and the description. -/
def summarizeDescriptionList (descriptions : List String) :
    Except ε (List SummarizationCall × String) :=
  match distinctDescriptions descriptions with
  | [] => .ok ([], "")
  | [description] => .ok ([], description)
  | descriptions => do
    let promptBudget ← context.renderSummarizationPrompt entityNameJson []
    let budgetTokens ← context.count promptBudget
    context.summarizeLoop entityNameJson promptBudget descriptions.length descriptions.zipIdx
      (context.maxInputTokens - budgetTokens) [] [] ""

end SummarizeContext

end GraphLoom.Graph
