import GraphLoom.Llm.Types
import GraphLoom.Query.Basic.Context

/-!
# Basic search

The context is put into the prompt, the model answers in chunks, and the answer is complete when
the chunks end.  The session of the query records the request, the answer and how the run ends.
-/

namespace GraphLoom.Query.Basic

open GraphLoom.Explainability Foundation Llm
open Recording BasicQueryExplainability

/-! ### Results -/

structure QueryUsage where
  llmCalls : ℕ
  promptTokens : ℕ
  outputTokens : ℕ
  categories : InsertionMap String QueryUsageCategory

def QueryUsage.fromCategories (categories : InsertionMap String QueryUsageCategory) :
    QueryUsage where
  llmCalls := categories.values.foldl (fun total value => usizeAdd total value.llmCalls) 0
  promptTokens := categories.values.foldl (fun total value => usizeAdd total value.promptTokens) 0
  outputTokens := categories.values.foldl (fun total value => usizeAdd total value.outputTokens) 0
  categories := categories

structure QueryResult where
  response : String
  context : QueryContext
  elapsed : ℕ
  usage : QueryUsage

inductive QueryEvent where
  | context (context : QueryContext)
  | token (content : String)
  | completed (result : QueryResult)

/-- What a query is run with.  The prompt is rendered from the context and the type of the response;
a chunk of the answer is the content of the first choice, where there is one. -/
structure BasicQueryRuntime where
  basicContext : BasicContextBuilder
  completionModelId : String
  callArgs : Json.Map
  asF64 : Json.Number → F64
  renderPrompt : String → String → Except String String
  stream : CompletionRequest → Except String (List (Except String (Option String)))
  -- the milliseconds of the search when it ends
  elapsed : ℕ

/-- The tokens of the messages, added without overflow. -/
def countCompletionInput (tokenizer : Tokenizer) (messages : List ChatMessage)
    (method : SearchMethod) (operation : String) : Except QueryError ℕ :=
  messages.foldlM (fun total message => do
    let tokens ← contextError method operation (tokenizer.count message.content.asStr)
    return usizeAdd total tokens) 0

/-- `Display` of the error of a request. -/
def requestErrorMessage : LlmError → String
  | .invalidRequest operation message =>
    "invalid model request during " ++ operation ++ ": " ++ message
  | _ => ""

namespace BasicQueryRuntime

variable (runtime : BasicQueryRuntime)

/-! ### The request -/

def renderMessages (contextText query responseType : String) :
    Except QueryError (List ChatMessage) :=
  match runtime.renderPrompt contextText responseType with
  | .ok rendered => .ok [ChatMessage.system rendered, ChatMessage.user query]
  | .error message =>
    .error (.queryPrompt .basic "render Basic Search prompt" "basic_search_system_prompt.txt"
      message)

def buildRequest (messages : List ChatMessage) : Except QueryError CompletionRequest :=
  let checked : Except LlmError CompletionRequest := do
    let request ← (CompletionRequest.new messages).applyCallArgs runtime.asF64 runtime.callArgs
    let request := { request with stream := some true }
    request.validate
    return request
  match checked with
  | .ok request => .ok request
  | .error source =>
    .error (.invalidQueryConfig .basic "build Basic Search completion request"
      (requestErrorMessage source))

def emitLlmRequestStarted (request : CompletionRequest) (promptTokens : ℕ)
    (session : BasicQueryExplainability) (s : Session) : Session :=
  match usizeToU64 promptTokens s with
  | (none, s) => s
  | (some promptTokens, s) =>
    let prompt := request.messages.head?.bind fun message => session.content message.content.asStr
    session.emit session.llm (some session.rootSpan)
      (.llmRequestStarted runtime.completionModelId promptTokens prompt) s

/-! ### The answer -/

/-- What the answer of a model is completed with. -/
structure CompletionStreamState where
  context : QueryContext
  categories : InsertionMap String QueryUsageCategory
  promptTokens : ℕ

def completedEvent (state : CompletionStreamState) (response : String) :
    Except QueryError QueryEvent :=
  match runtime.basicContext.tokenizer.count response with
  | .error message =>
    .error (.queryCompletion .basic "count Basic Search output tokens" runtime.completionModelId
      message)
  | .ok outputTokens =>
    .ok (.completed
      { response := response
        context := state.context
        elapsed := runtime.elapsed
        usage := QueryUsage.fromCategories
          (state.categories.set "response" ⟨1, state.promptTokens, outputTokens⟩) })

/-- The events of the chunks behind a part of the response; an empty chunk gives none. -/
def chunkEvents (state : CompletionStreamState) (response : String) :
    List (Except String (Option String)) → List (Except QueryError QueryEvent)
  | [] => [runtime.completedEvent state response]
  | .error message :: _ =>
    [.error (.queryCompletion .basic "consume Basic Search completion stream"
      runtime.completionModelId message)]
  | .ok content :: chunks =>
    let content := content.getD ""
    if content = "" then chunkEvents state response chunks
    else .ok (.token content) :: chunkEvents state (response ++ content) chunks

def completionEventStream (state : CompletionStreamState)
    (chunks : List (Except String (Option String))) : List (Except QueryError QueryEvent) :=
  .ok (.context state.context) :: runtime.chunkEvents state "" chunks

def prepareBasicStream (query responseType : String)
    (explainability : Option BasicQueryExplainability) :
    Recording (List (Except QueryError QueryEvent)) := do
  let built ← runtime.basicContext.buildExplainable query explainability
  let messages ← lift (runtime.renderMessages built.context.text query responseType)
  let promptTokens ← lift (countCompletionInput runtime.basicContext.tokenizer messages .basic
    "count Basic Search completion input tokens")
  let request ← lift (runtime.buildRequest messages)
  observe explainability (runtime.emitLlmRequestStarted request promptTokens)
  let chunks ← lift (match runtime.stream request with
    | .ok chunks => .ok chunks
    | .error message =>
      .error (.queryCompletion .basic "start Basic Search completion stream"
        runtime.completionModelId message))
  return runtime.completionEventStream
    ⟨built.context, [("build_context", built.usage)], promptTokens⟩ chunks

def emitLlmCompleted (result : QueryResult) (session : BasicQueryExplainability) (s : Session) :
    Session :=
  match result.usage.categories.get "response" with
  | none => markSidecarFailure s
  | some usage =>
    let (inputTokens, s) := usizeToU64 usage.promptTokens s
    let (outputTokens, s) := usizeToU64 usage.outputTokens s
    let (elapsedMs, s) := durationMillis session.llmElapsed s
    match inputTokens, outputTokens, elapsedMs with
    | some inputTokens, some outputTokens, some elapsedMs =>
      session.emit session.llm (some session.rootSpan)
        (.llmRequestCompleted runtime.completionModelId inputTokens outputTokens elapsedMs
          (session.content result.response)) s
    | _, _, _ => s

/-- What `next_basic_completion_event` records of one event, or of the end of the events. -/
def recordBasicCompletionEvent (event : Option (Except QueryError QueryEvent))
    (session : BasicQueryExplainability) (s : Session) : Session :=
  match event with
  | some (.ok (.completed result)) =>
    session.finishSuccess (runtime.emitLlmCompleted result session s)
  | some (.ok _) => s
  | some (.error error) => session.finishQueryError error s
  | none => session.finishStreamEnded s

/-- The events are taken up to the completed one or to an error. -/
def consume (explainability : Option BasicQueryExplainability) :
    List (Except QueryError QueryEvent) → Recording QueryResult
  | [] => do
    observe explainability (runtime.recordBasicCompletionEvent none)
    lift (.error (.queryCompletion .basic "aggregate Basic Search stream" "unknown"
      ("invalid model response for unknown during query stream: " ++
        "stream ended without a completed event")))
  | event :: events => do
    observe explainability (runtime.recordBasicCompletionEvent (some event))
    let event ← lift event
    match event with
    | .completed result => return result
    | _ => consume explainability events

def basicSearchStreaming (query responseType : String)
    (explainability : Option BasicQueryExplainability) :
    Recording (List (Except QueryError QueryEvent)) := fun s =>
  match runtime.prepareBasicStream query responseType explainability s with
  | (.ok events, s) => (.ok events, s)
  | (.error error, s) =>
    (.error error, match explainability with
      | some session => session.finishQueryError error s
      | none => s)

def basicSearch (query responseType : String)
    (explainability : Option BasicQueryExplainability) : Recording QueryResult := do
  let events ← runtime.basicSearchStreaming query responseType explainability
  runtime.consume explainability events

/-- A query with a session, from the first record on. -/
def run (query responseType : String) (session : BasicQueryExplainability) :
    Except QueryError QueryResult × Session :=
  runtime.basicSearch query responseType (some session) (session.start query Session.new)

end BasicQueryRuntime

end GraphLoom.Query.Basic
