import GraphLoom.Query.Result
import GraphLoom.Text

/-!
# Context tables

The tables of a context and their text, and the table of the conversation so far.  A tokenizer
counts the tokens of a text or fails with a message, and a writer of CSV renders records.
-/

namespace GraphLoom.Query

/-- `Tokenizer::count`, a `usize`, with the message of its error. -/
structure Tokenizer where
  count : String → Except String ℕ
  count_le : ∀ text tokens, count text = .ok tokens → tokens ≤ usizeMax

/-- The tokenizer that counts by a measure of texts. -/
def Tokenizer.ofMeasure (measure : String → ℕ) : Tokenizer where
  count text := .ok (min usizeMax (measure text))
  count_le := by
    intro text tokens h
    obtain rfl := Except.ok.inj h
    exact Nat.min_le_left _ _

/-- The records of the `csv` crate with the delimiter `|`, with the message of its error. -/
abbrev CsvWriter := List (List String) → Except String String

/-- One string-valued context table in stable column and row order. -/
structure ContextTable where
  columns : List String
  rows : List (List String)
deriving DecidableEq, Repr

def delimitedRecord (fields : List String) : String := String.intercalate "|" fields ++ "\n"

def sectionTitle (contextName : String) : String := "-----" ++ contextName ++ "-----\n"

/-- An error of a library as an error of the context. -/
def contextError {α : Type} (method : SearchMethod) (operation : String) :
    Except String α → Except QueryError α
  | .ok a => .ok a
  | .error message => .error (.queryContext method operation message)

namespace ContextTable

variable (table : ContextTable) (method : SearchMethod) (operation : String)

def push (row : List String) : ContextTable := { table with rows := table.rows ++ [row] }

def validateRow (row : List String) : Except QueryError Unit :=
  if row.length = table.columns.length then .ok ()
  else
    .error (.queryContext method operation ("context row has " ++ toString row.length ++
      " fields but " ++ toString table.columns.length ++ " columns were declared"))

def validateRows : Except QueryError Unit := table.rows.forM (table.validateRow method operation)

def renderCsv (csv : CsvWriter) : Except QueryError String := do
  table.validateRows method operation
  contextError method operation (csv (table.columns :: table.rows))

def renderCsvSection (csv : CsvWriter) (contextName : String) : Except QueryError String := do
  let rendered ← table.renderCsv method operation csv
  return sectionTitle contextName ++ rendered

def renderDelimited : Except QueryError String := do
  table.validateRows method operation
  return delimitedRecord table.columns ++ String.join (table.rows.map delimitedRecord)

def renderDelimitedSection (contextName : String) : Except QueryError String := do
  let rendered ← table.renderDelimited method operation
  return sectionTitle contextName ++ rendered

def renderDelimitedHeader (contextName : String) : Except QueryError String := do
  table.validateRows method operation
  return sectionTitle contextName ++ delimitedRecord table.columns

def renderDelimitedRow (row : List String) : Except QueryError String := do
  table.validateRow method operation row
  return delimitedRecord row

end ContextTable

/-! ### Conversations -/

inductive ConversationRole where
  | system
  | user
  | assistant
deriving DecidableEq, Repr

def ConversationRole.asStr : ConversationRole → String
  | .system => "system"
  | .user => "user"
  | .assistant => "assistant"

structure ConversationTurn where
  role : ConversationRole
  content : String
deriving DecidableEq, Repr

structure ConversationHistory where
  turns : List ConversationTurn
deriving DecidableEq, Repr

structure ConversationContext where
  text : String
  table : ContextTable
deriving DecidableEq, Repr

/-- A zero maximum means no limit. -/
def takeTurns {α : Type} (maxTurns : ℕ) (turns : List α) : List α :=
  if maxTurns = 0 then turns else turns.take maxTurns

namespace ConversationHistory

variable (history : ConversationHistory)

def maxConversationTurns : ℕ := 1024

def maxConversationContentBytes : ℕ := 65536

def validate : Except String Unit :=
  if maxConversationTurns < history.turns.length then
    .error ("conversation_history has " ++ toString history.turns.length ++
      " turns; maximum is " ++ toString maxConversationTurns)
  else
    match history.turns.zipIdx.find? fun turn =>
      maxConversationContentBytes < turn.1.content.utf8ByteSize with
    | some turn =>
      .error ("conversation_history turn " ++ toString turn.2 ++ " has " ++
        toString turn.1.content.utf8ByteSize ++ " content bytes; maximum is " ++
        toString maxConversationContentBytes)
    | none => .ok ()

def userTurns : List ConversationTurn := history.turns.filter fun turn => turn.role = .user

/-- The turns that fit, one after another until one does not. -/
def fitTurns (tokenizer : Tokenizer) (csv : CsvWriter) (maxTokens : ℕ) :
    ContextTable → List ConversationTurn → Except QueryError ContextTable
  | table, [] => .ok table
  | table, turn :: turns => do
    let trial := table.push [ConversationRole.user.asStr, turn.content]
    let trialText ← trial.renderCsvSection .local "render conversation history candidate" csv
      "Conversation History"
    let tokens ← contextError .local "count conversation history candidate"
      (tokenizer.count trialText)
    if maxTokens < tokens then return table else fitTurns tokenizer csv maxTokens trial turns

def buildUserContext (tokenizer : Tokenizer) (csv : CsvWriter) (maxTurns maxTokens : ℕ) :
    Except QueryError ConversationContext := do
  let table : ContextTable := ⟨["turn", "content"], []⟩
  if history.userTurns = [] then return ⟨"", table⟩
  else
    let table ← fitTurns tokenizer csv maxTokens table (takeTurns maxTurns history.userTurns)
    if table.rows = [] then return ⟨sectionTitle "Conversation History" ++ "\n", table⟩
    else
      let text ← table.renderCsvSection .local "render conversation history" csv
        "Conversation History"
      return ⟨text, table⟩

end ConversationHistory

end GraphLoom.Query
