import GraphLoom.Communities.Context
import GraphLoom.Foundation.BufferUnordered
import GraphLoom.Llm.Parser
import GraphLoom.Prompts.Prompt

/-!
# Extracting the reports of communities

The communities of a level are sent to the model with at most `concurrency` calls in flight, and the
level below begins when all of them are done.  A call that fails, or whose answer is no report, is a
warning; the other errors end the extraction.

The model, the tokenizer, the prompt engine and the readers and writers of JSON are parameters.
Each community has one call, which may end in any way.
-/

namespace GraphLoom.Communities

open Foundation Llm Prompts

structure ReportTask where
  index : ℕ
  community : CommunityInputRow
  context : String
deriving DecidableEq, Repr

/-- What the reports are extracted with. -/
structure ReportCalls (γ : Type) (tera : Tera) where
  template : PromptTemplate tera
  maxReportLength : ℕ
  maxInputLength : ℕ
  entities : List EntityContextRow
  relationships : List RelationshipContextRow
  contextTools : ContextTools
  /-- how the call for a community ends -/
  complete : CommunityInputRow → CompletionRequest → Except LlmError γ
  /-- `CompletionResponse::content` -/
  content : γ → Except LlmError String
  /-- `Display` of an error -/
  display : LlmError → String
  /-- `serde_json::from_str` -/
  fromStr : String → Except String Json.Value
  /-- `serde_json::from_value` -/
  fromValue : Json.Value → Except String CommunityReport
  genSha512Hash : String → String
  toStringPretty : CommunityReport → Except GraphLoomError String

namespace ReportCalls

variable {γ : Type} {tera : Tera} (calls : ReportCalls γ tera)

/-! ### One report -/

/-- `parse_community_report`. -/
def parseCommunityReport (input : String) : Except LlmError CommunityReport := do
  let (_, value) ← tryParseJsonObject calls.fromStr input
  match calls.fromValue value with
  | .ok report => return report
  | .error message => .error (.parse "community report" message)

/-- `ReportPromptValues`. -/
def promptValues (context : String) : Context := fun name =>
  if name = "input_text" then some context.toList
  else if name = "max_report_length" then some (toString calls.maxReportLength).toList
  else none

def renderedPrompt (context : String) : Except GraphLoomError String :=
  match calls.template.bind (calls.promptValues context) >>= Prompt.render with
  | .ok text => .ok (String.ofList text)
  | .error error =>
    .error (.promptRender error.kind error.name error.promptSource error.message)

/-- The report of a community, or the warning that there is none. -/
def requestReport (community : CommunityInputRow) (context : String) :
    Except GraphLoomError (Except String CommunityReport) := do
  let prompt ← calls.renderedPrompt context
  let about := "community report " ++ toString community.community
  match calls.complete community (.new [.user prompt]) with
  | .error source => return .error (about ++ " failed: " ++ calls.display source)
  | .ok response =>
    match calls.content response with
    | .error _ => return .error (about ++ " returned an empty response")
    | .ok content =>
      match calls.parseCommunityReport content with
      | .error source => return .error (about ++ " returned invalid JSON: " ++ calls.display source)
      | .ok report => return .ok report

/-- The context of each community, which is empty where none was built. -/
def localContexts (communities : List CommunityInputRow) : Except GraphLoomError (ℤ → String) := do
  let contexts ← buildLocalContexts calls.contextTools calls.maxInputLength communities
    calls.entities calls.relationships
  return fun community => contexts[community]?.getD ""

/-- The calls as they are made one after another. -/
def tools : ReportTools where
  buildLocalContexts := calls.localContexts
  complete community context := (calls.requestReport community context).map Except.toOption
  genSha512Hash := calls.genSha512Hash
  toStringPretty := calls.toStringPretty

/-- `extract_report_for_community`, with the warning in place of no report. -/
def extractReport (task : ReportTask) : Except GraphLoomError (Except String CommunityReportRow) := do
  match ← calls.requestReport task.community task.context with
  | .error warning => return .error warning
  | .ok report => (materializeReport calls.tools task.community report).map .ok

end ReportCalls

/-! ### Levels -/

/-- The communities of each level, from the highest level down. -/
def communityLevels (communities : List CommunityInputRow) : List (List CommunityInputRow) :=
  ((groupBy CommunityInputRow.level communities).map fun level =>
    level.2.mergeSort fun a b => a.community ≤ b.community).reverse

def levelTasks (contexts : ℤ → String) (communities : List CommunityInputRow) : List ReportTask :=
  communities.zipIdx.map fun row => ⟨row.2, row.1, contexts row.1.community⟩

def ReportCalls.taskLevels {γ : Type} {tera : Tera} (calls : ReportCalls γ tera)
    (communities : List CommunityInputRow) : Except GraphLoomError (List (List ReportTask)) := do
  let contexts ← calls.localContexts communities
  return (communityLevels communities).map (levelTasks contexts)

/-! ### The loop over the levels -/

/-- The levels that have not begun, the calls of the one that has, and what is there so far. -/
structure ReportsState where
  remaining : List (List ReportTask)
  stream : Buffer ReportTask
  completedLevel : List (ℕ × Option CommunityReportRow)
  completed : ℕ
  progress : List (ℕ × ℕ)
  warnings : List String
  reports : List CommunityReportRow
  returned : Option (Except GraphLoomError (List CommunityReportRow))

namespace ReportsState

/-- No level has begun. -/
def start (levels : List (List ReportTask)) : ReportsState where
  remaining := levels
  stream := .full []
  completedLevel := []
  completed := 0
  progress := []
  warnings := []
  reports := []
  returned := none

/-- The start, unless the contexts could not be built. -/
def ofLevels : Except GraphLoomError (List (List ReportTask)) → ReportsState
  | .ok levels => start levels
  | .error error => { start [] with returned := some (.error error) }

/-- A call is completed. -/
def record (s : ReportsState) (total : ℕ) (task : ReportTask)
    (result : Except String CommunityReportRow) : ReportsState :=
  let completed := usizeAdd s.completed 1
  { s with
    completedLevel := s.completedLevel ++ [(task.index, result.toOption)]
    completed
    progress := s.progress ++ [(completed, total)]
    warnings := s.warnings ++ (match result with
      | .error warning => [warning]
      | .ok _ => []) }

/-- The reports, with those of the level in the order of its tasks. -/
def collected (s : ReportsState) : List CommunityReportRow :=
  s.reports ++
    ((s.completedLevel.insertionSort fun a b => a.1 ≤ b.1).map Prod.snd).reduceOption

end ReportsState

inductive ReportsStep (extract : ReportTask → Except GraphLoomError (Except String CommunityReportRow))
    (limit total : ℕ) (s : ReportsState) : Option ReportTask → ReportsState → Prop
  | start {stream : Buffer ReportTask} (waits : s.returned = none)
      (poll : Buffer.Poll limit s.stream none stream) :
      ReportsStep extract limit total s none { s with stream }
  | completed {stream : Buffer ReportTask} {task : ReportTask}
      {result : Except String CommunityReportRow} (waits : s.returned = none)
      (poll : Buffer.Poll limit s.stream (some task) stream) (ends : extract task = .ok result) :
      ReportsStep extract limit total s (some task) ({ s with stream }.record total task result)
  | failed {stream : Buffer ReportTask} {task : ReportTask} {error : GraphLoomError}
      (waits : s.returned = none) (poll : Buffer.Poll limit s.stream (some task) stream)
      (ends : extract task = .error error) :
      ReportsStep extract limit total s (some task)
        { s with stream, returned := some (.error error) }
  | level {tasks : List ReportTask} {remaining : List (List ReportTask)} (waits : s.returned = none)
      (drained : s.stream.Drained) (next : s.remaining = tasks :: remaining) :
      ReportsStep extract limit total s none
        { s with
          remaining, stream := .full tasks, completedLevel := [], reports := s.collected }
  | finished (waits : s.returned = none) (drained : s.stream.Drained) (last : s.remaining = []) :
      ReportsStep extract limit total s none
        { s with
          completedLevel := [], reports := s.collected, returned := some (.ok s.collected) }

/-- The runs of `create_community_reports`. -/
def ReportCalls.runs {γ : Type} {tera : Tera} (calls : ReportCalls γ tera) (concurrency : ℕ)
    (communities : List CommunityInputRow) : System ReportsState (Option ReportTask) where
  init s := s = .ofLevels (calls.taskLevels communities)
  step := ReportsStep calls.extractReport (max concurrency 1) communities.length

end GraphLoom.Communities
