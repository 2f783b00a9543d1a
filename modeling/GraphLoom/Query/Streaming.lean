import GraphLoom.Query.Basic.Search

/-!
# Streams of query events

A search prepares its context and its prompt, asks the model for a stream of chunks and turns the
chunks into events for the client.  The session of the query, when there is one, records what
happens in a sink and ends the run exactly once: the stream, the search and the engine all try to
end it, and the first of them does.

What a search does before it asks the model, the sink, the provider and the clock are parameters.
-/

namespace GraphLoom.Query.Streaming

open GraphLoom.Explainability Foundation Llm
open Basic (ExplainabilityContentMode QueryUsage)
open Basic.BasicQueryExplainability (queryErrorKind)

variable {σ ε κ : Type}

/-! ### Records -/

/-- The events of a query; `ε` stands for those of its stages. -/
inductive ExplainabilityEvent (ε : Type) where
  | runStarted (kind : ExplainabilityRunKind) (contentMode : ExplainabilityContentMode)
  | queryStarted (method : ExplainabilityQueryMethod) (query : Option String)
  | stage (event : ε)
  | llmRequestStarted (modelId : String) (promptTokens : ℕ) (prompt : Option String)
  | llmRequestCompleted (modelId : String) (inputTokens outputTokens elapsedMs : ℕ)
      (response : Option String)
  /-- There were no positive points to reduce. -/
  | globalReduceSkipped
  | runCompleted (elapsedMs : ℕ)
  | runFailed (errorKind message : String)
deriving DecidableEq

abbrev QueryRecord (ε : Type) := ExplainabilityRecord (ExplainabilityEvent ε)

/-- A consumer of records, with a state of its own; `true` stands for `Ok`. -/
structure ExplainabilitySink (σ ε : Type) where
  emit : QueryRecord ε → σ → Bool × σ
  finishRun : ExplainabilityRunId → σ → Bool × σ

inductive SinkCall (ε : Type) where
  | emit (record : QueryRecord ε) (accepted : Bool)
  | finishRun (runId : ExplainabilityRunId) (finalized : Bool)

/-! ### Sessions -/

/-- The identity of one query, its sink and what its clock says. -/
structure QueryExplainabilitySession (σ ε : Type) where
  runId : ExplainabilityRunId
  contentMode : ExplainabilityContentMode
  sink : ExplainabilitySink σ ε
  method : ExplainabilityQueryMethod
  rootSpan : ExplainabilitySpanId
  -- the span of the answer: `llm`, and `reduce` for a global query
  llm : ExplainabilitySpanId
  -- `Utc::now` at each emission
  now : ℕ → DateTime
  -- the milliseconds of the run and of the model's request when they end
  runElapsed : ℕ
  llmElapsed : ℕ

/-- What a session has done, with all its calls of the sink. -/
structure SessionState (σ ε : Type) where
  sink : σ
  calls : List (SinkCall ε)
  emissions : ℕ
  failures : ℕ
  terminalStarted : Bool

namespace SessionState

variable (s : SessionState σ ε)

def new (sink : σ) : SessionState σ ε := ⟨sink, [], 0, 0, false⟩

/-- The counter of the failures wraps around. -/
def deliveryFailureCount : ℕ := s.failures % 2 ^ 64

def markSidecarFailure : SessionState σ ε := { s with failures := s.failures + 1 }

/-- A conversion to `u64`; a failure is marked. -/
def convert (value : ℕ) : Option ℕ × SessionState σ ε :=
  if value ≤ u64Max then (some value, s) else (none, s.markSidecarFailure)

def usizeToU64 (value : ℕ) : Option ℕ × SessionState σ ε := s.convert value

def durationMillis (millis : ℕ) : Option ℕ × SessionState σ ε := s.convert millis

end SessionState

/-- What the stages of a search do in a session.  The calls of a global search run concurrently, and
this is the order in which they reach the sink. -/
inductive SessionOp (ε : Type) where
  | emit (spanId : ExplainabilitySpanId) (parentSpanId : Option ExplainabilitySpanId) (event : ε)
  | sidecarFailure

namespace QueryExplainabilitySession

variable (session : QueryExplainabilitySession σ ε)

def content (value : String) : Option String :=
  if session.contentMode.includesContent then some value else none

def record (emission : ℕ) (spanId : ExplainabilitySpanId)
    (parentSpanId : Option ExplainabilitySpanId) (event : ExplainabilityEvent ε) : QueryRecord ε :=
  ⟨session.runId, session.now emission, spanId, parentSpanId, event⟩

def emit (spanId : ExplainabilitySpanId) (parentSpanId : Option ExplainabilitySpanId)
    (event : ExplainabilityEvent ε) (s : SessionState σ ε) : SessionState σ ε :=
  let record := session.record s.emissions spanId parentSpanId event
  let (accepted, sink) := session.sink.emit record s.sink
  { s with
    sink
    calls := s.calls ++ [.emit record accepted]
    emissions := s.emissions + 1
    failures := if accepted then s.failures else s.failures + 1 }

def perform (s : SessionState σ ε) : SessionOp ε → SessionState σ ε
  | .emit spanId parentSpanId event => session.emit spanId parentSpanId (.stage event) s
  | .sidecarFailure => s.markSidecarFailure

def emitStart (query : String) (s : SessionState σ ε) : SessionState σ ε :=
  let s := session.emit session.rootSpan none (.runStarted .query session.contentMode) s
  session.emit session.rootSpan none (.queryStarted session.method (session.content query)) s

def finishRun (s : SessionState σ ε) : SessionState σ ε :=
  let (finalized, sink) := session.sink.finishRun session.runId s.sink
  { s with sink, calls := s.calls ++ [.finishRun session.runId finalized] }

def deliveryFailedEvent : ExplainabilityEvent ε :=
  .runFailed "explainability_delivery"
    "One or more explainability records could not be delivered."

def queryErrorMessage : String :=
  match session.method with
  | .global => "Global query execution failed."
  | .basic => "Basic query execution failed."
  | .local | .drift => "Local query execution failed."

/-- Only the first end of a run counts. -/
def beginTerminal (s : SessionState σ ε) : Option (SessionState σ ε) :=
  if s.terminalStarted then none else some { s with terminalStarted := true }

def finishSuccess (s : SessionState σ ε) : SessionState σ ε :=
  match beginTerminal s with
  | none => s
  | some s =>
    let (elapsedMs, s) := s.durationMillis session.runElapsed
    let event :=
      if s.deliveryFailureCount = 0 then elapsedMs.map .runCompleted else some deliveryFailedEvent
    session.finishRun (session.emit session.rootSpan none (event.getD deliveryFailedEvent) s)

def finishFailure (errorKind : String) (s : SessionState σ ε) : SessionState σ ε :=
  match beginTerminal s with
  | none => s
  | some s =>
    session.finishRun
      (session.emit session.rootSpan none (.runFailed errorKind session.queryErrorMessage) s)

def finishQueryError (error : QueryError) (s : SessionState σ ε) : SessionState σ ε :=
  session.finishFailure (queryErrorKind error) s

/-- The error of a request is the error of its query. -/
def finishGraphloomError (error : QueryError) (s : SessionState σ ε) : SessionState σ ε :=
  session.finishFailure (queryErrorKind error) s

def finishStreamEnded (s : SessionState σ ε) : SessionState σ ε :=
  session.finishFailure "query_completion" s

end QueryExplainabilitySession

/-- An action of the session, where there is one. -/
def observe (session : Option (QueryExplainabilitySession σ ε))
    (action : QueryExplainabilitySession σ ε → SessionState σ ε → SessionState σ ε)
    (s : SessionState σ ε) : SessionState σ ε :=
  match session with
  | some session => action session s
  | none => s

/-! ### Events for the client -/

structure QueryResult (κ : Type) where
  response : String
  context : κ
  elapsed : ℕ
  usage : QueryUsage

inductive QueryEvent (κ : Type) where
  | context (context : κ)
  | token (content : String)
  | completed (result : QueryResult κ)

/-- An item of a stream. -/
abbrev QueryItem (κ : Type) := Except QueryError (QueryEvent κ)

/-- What a poll of a stream comes to; `none` is the end of the stream. -/
inductive Poll (α : Type) where
  /-- Nothing comes any more, and the client waits. -/
  | pending
  | ready (item : Option α)

/-! ### Chunks of an answer -/

/-- The contents of the choices of a chunk. -/
structure CompletionChunk where
  choices : List (Option String)
deriving DecidableEq, Repr

/-- The content of the first choice. -/
def CompletionChunk.content (chunk : CompletionChunk) : String := (chunk.choices.head?.join).getD ""

/-- What a provider sends, and whether it closes the stream behind that. -/
structure CompletionStream where
  chunks : List (Except String CompletionChunk)
  ends : Bool
deriving DecidableEq, Repr

structure CompletionStreamState (κ : Type) where
  provider : CompletionStream
  context : κ
  categories : InsertionMap String QueryUsageCategory
  completionCategory : String
  promptTokens : ℕ
  tokenizer : Tokenizer
  completionModelId : String
  method : SearchMethod
  consumeOperation : String
  outputCountOperation : String
  outputCountIsContextError : Bool
  elapsed : ℕ

structure ActiveCompletionStream (κ : Type) where
  configured : CompletionStreamState κ
  response : String
  contextPending : Bool

namespace ActiveCompletionStream

variable (configured : CompletionStreamState κ)

def outputCountError (message : String) : QueryError :=
  if configured.outputCountIsContextError then
    .queryContext configured.method configured.outputCountOperation message
  else
    .queryCompletion configured.method configured.outputCountOperation configured.completionModelId
      message

def completedEvent (response : String) : QueryItem κ :=
  match configured.tokenizer.count response with
  | .error message => .error (outputCountError configured message)
  | .ok outputTokens =>
    .ok (.completed {
      response := response
      context := configured.context
      elapsed := configured.elapsed
      usage := QueryUsage.fromCategories (configured.categories.set configured.completionCategory
        ⟨1, configured.promptTokens, outputTokens⟩) })

/-- The chunks without content are skipped. -/
def nextChunk (response : String) :
    List (Except String CompletionChunk) → Poll (QueryItem κ × Option (ActiveCompletionStream κ))
  | [] =>
    if configured.provider.ends then .ready (some (completedEvent configured response, none))
    else .pending
  | .ok chunk :: chunks =>
    if chunk.content = "" then nextChunk response chunks
    else
      .ready (some (.ok (.token chunk.content),
        some {
          configured := { configured with provider := { configured.provider with chunks } }
          response := response ++ chunk.content
          contextPending := false }))
  | .error message :: _ =>
    .ready (some (.error (.queryCompletion configured.method configured.consumeOperation
      configured.completionModelId message), none))

def nextEvent : Option (ActiveCompletionStream κ) →
    Poll (QueryItem κ × Option (ActiveCompletionStream κ))
  | none => .ready none
  | some state =>
    if state.contextPending then
      .ready (some (.ok (.context state.configured.context),
        some { state with contextPending := false }))
    else nextChunk state.configured state.response state.configured.provider.chunks

end ActiveCompletionStream

/-- The events of an answer, or the fixed ones of a search that has nothing to ask. -/
inductive QueryEvents (κ : Type) where
  | completion (state : Option (ActiveCompletionStream κ))
  | iter (events : List (QueryEvent κ))

def completionEventStream (state : CompletionStreamState κ) : QueryEvents κ :=
  .completion (some ⟨state, "", true⟩)

def QueryEvents.next : QueryEvents κ → Poll (QueryItem κ × QueryEvents κ)
  | .completion state =>
    match ActiveCompletionStream.nextEvent state with
    | .pending => .pending
    | .ready none => .ready none
    | .ready (some (item, state)) => .ready (some (item, .completion state))
  | .iter [] => .ready none
  | .iter (event :: events) => .ready (some (.ok event, .iter events))

/-! ### The searches -/

/-- The searches whose queries may have a session. -/
inductive ExplainedMethod where
  | basic
  | local
  | global
deriving DecidableEq, Repr

namespace ExplainedMethod

def searchMethod : ExplainedMethod → SearchMethod
  | .basic => .basic
  | .local => .local
  | .global => .global

/-- `method.into()` of a session. -/
def queryMethod : ExplainedMethod → ExplainabilityQueryMethod
  | .basic => .basic
  | .local => .local
  | .global => .global

def completionCategory : ExplainedMethod → String
  | .basic | .local => "response"
  | .global => "reduce"

def startOperation : ExplainedMethod → String
  | .basic => "start Basic Search completion stream"
  | .local => "start Local Search completion stream"
  | .global => "start Global Search reduce stream"

def consumeOperation : ExplainedMethod → String
  | .basic => "consume Basic Search completion stream"
  | .local => "consume Local Search completion stream"
  | .global => "consume Global Search reduce stream"

def outputCountOperation : ExplainedMethod → String
  | .basic => "count Basic Search output tokens"
  | .local => "count Local Search output tokens"
  | .global => "count Global reduce output tokens"

def outputCountIsContextError : ExplainedMethod → Bool
  | .basic | .local => false
  | .global => true

def aggregateOperation : ExplainedMethod → String
  | .basic => "aggregate Basic Search stream"
  | .local => "aggregate Local Search stream"
  | .global => "aggregate Global Search stream"

end ExplainedMethod

/-- The stream of a search with what its session needs. -/
structure CompletionState (κ : Type) where
  events : QueryEvents κ
  method : ExplainedMethod
  completionModelId : String
  -- a global search that had nothing to reduce has no completion
  reduces : Bool

section Completed

variable (session : QueryExplainabilitySession σ ε) (completionModelId : String)

/-- A conversion that fails ends it. -/
def emitLlmCompletedLocal (result : QueryResult κ) (s : SessionState σ ε) : SessionState σ ε :=
  match result.usage.categories.get "response" with
  | none => s.markSidecarFailure
  | some usage =>
    match s.usizeToU64 usage.promptTokens with
    | (none, s) => s
    | (some inputTokens, s) =>
      match s.usizeToU64 usage.outputTokens with
      | (none, s) => s
      | (some outputTokens, s) =>
        match s.durationMillis session.llmElapsed with
        | (none, s) => s
        | (some elapsedMs, s) =>
          session.emit session.llm (some session.rootSpan)
            (.llmRequestCompleted completionModelId inputTokens outputTokens elapsedMs
              (session.content result.response)) s

/-- All values are converted before one of them is missed. -/
def emitLlmCompletedWith (promptTokens outputTokens : ℕ) (response : String)
    (s : SessionState σ ε) : SessionState σ ε :=
  let (inputTokens, s) := s.usizeToU64 promptTokens
  let (outputTokens, s) := s.usizeToU64 outputTokens
  let (elapsedMs, s) := s.durationMillis session.llmElapsed
  match inputTokens, outputTokens, elapsedMs with
  | some inputTokens, some outputTokens, some elapsedMs =>
    session.emit session.llm (some session.rootSpan)
      (.llmRequestCompleted completionModelId inputTokens outputTokens elapsedMs
        (session.content response)) s
  | _, _, _ => s

def emitLlmCompletedBasic (result : QueryResult κ) (s : SessionState σ ε) : SessionState σ ε :=
  match result.usage.categories.get "response" with
  | none => s.markSidecarFailure
  | some usage =>
    emitLlmCompletedWith session completionModelId usage.promptTokens usage.outputTokens
      result.response s

def emitLlmCompletedGlobal (reduces : Bool) (result : QueryResult κ) (s : SessionState σ ε) :
    SessionState σ ε :=
  if reduces then
    match result.usage.categories.get "reduce" with
    | none => s.markSidecarFailure
    | some usage =>
      emitLlmCompletedWith session completionModelId usage.promptTokens usage.outputTokens
        result.response s
  else s

end Completed

namespace CompletionState

def emitLlmCompleted (state : CompletionState κ) (result : QueryResult κ)
    (session : QueryExplainabilitySession σ ε) (s : SessionState σ ε) : SessionState σ ε :=
  match state.method with
  | .basic => emitLlmCompletedBasic session state.completionModelId result s
  | .local => emitLlmCompletedLocal session state.completionModelId result s
  | .global => emitLlmCompletedGlobal session state.completionModelId state.reduces result s

/-- `next_local_completion_event`, and the same for the other searches. -/
def nextCompletionEvent (session : Option (QueryExplainabilitySession σ ε)) :
    Option (CompletionState κ) → SessionState σ ε →
      Poll (QueryItem κ × Option (CompletionState κ)) × SessionState σ ε
  | none, s => (.ready none, s)
  | some state, s =>
    match state.events.next with
    | .pending => (.pending, s)
    | .ready none => (.ready none, observe session (·.finishStreamEnded) s)
    | .ready (some (.ok (.completed result), _)) =>
      (.ready (some (.ok (.completed result), none)),
        observe session (·.finishSuccess) (observe session (state.emitLlmCompleted result) s))
    | .ready (some (.ok event, events)) =>
      (.ready (some (.ok event, some { state with events })), s)
    | .ready (some (.error error, _)) =>
      (.ready (some (.error error, none)), observe session (·.finishQueryError error) s)

end CompletionState

/-- What a search has to ask the model with; `none` when there is nothing to ask. -/
structure PreparedQuery (κ : Type) where
  context : κ
  categories : InsertionMap String QueryUsageCategory
  request : Option (CompletionRequest × ℕ)

/-- A query up to the model: what its stages record, and what they come to. -/
structure QueryRuntime (κ ε : Type) where
  method : ExplainedMethod
  stages : List (SessionOp ε) × Except QueryError (PreparedQuery κ)
  completionModelId : String
  tokenizer : Tokenizer
  stream : CompletionRequest → Except String CompletionStream
  -- only a global search may have nothing to ask
  asks : ∀ prepared, stages.2 = .ok prepared → prepared.request = none → method = .global
  elapsed : ℕ

namespace QueryRuntime

variable (runtime : QueryRuntime κ ε)

def noDataAnswer : String :=
  "I am sorry but I am unable to answer this question given the provided data."

def noDataStream (prepared : PreparedQuery κ) : QueryEvents κ :=
  .iter [.context prepared.context, .token noDataAnswer,
    .completed {
      response := noDataAnswer
      context := prepared.context
      elapsed := runtime.elapsed
      usage := QueryUsage.fromCategories (prepared.categories.set "reduce" .none) }]

def emitLlmStarted (request : CompletionRequest) (promptTokens : ℕ)
    (session : QueryExplainabilitySession σ ε) (s : SessionState σ ε) : SessionState σ ε :=
  match s.usizeToU64 promptTokens with
  | (none, s) => s
  | (some promptTokens, s) =>
    let prompt := request.messages.head?.bind fun message => session.content message.content.asStr
    session.emit session.llm (some session.rootSpan)
      (.llmRequestStarted runtime.completionModelId promptTokens prompt) s

def completionState (events : QueryEvents κ) (reduces : Bool) : CompletionState κ :=
  ⟨events, runtime.method, runtime.completionModelId, reduces⟩

/-- `prepare_local_stream`, and the same for the other searches. -/
def prepareStream (session : Option (QueryExplainabilitySession σ ε)) (s : SessionState σ ε) :
    Except QueryError (CompletionState κ) × SessionState σ ε :=
  let s := observe session (fun session s => runtime.stages.1.foldl session.perform s) s
  match runtime.stages.2 with
  | .error error => (.error error, s)
  | .ok prepared =>
    match prepared.request with
    | none =>
      (.ok (runtime.completionState (runtime.noDataStream prepared) false),
        observe session
          (fun session => session.emit session.llm (some session.rootSpan) .globalReduceSkipped) s)
    | some (request, promptTokens) =>
      let s := observe session (runtime.emitLlmStarted request promptTokens) s
      match runtime.stream request with
      | .error message =>
        (.error (.queryCompletion runtime.method.searchMethod runtime.method.startOperation
          runtime.completionModelId message), s)
      | .ok provider =>
        (.ok (runtime.completionState (completionEventStream {
          provider
          context := prepared.context
          categories := prepared.categories
          completionCategory := runtime.method.completionCategory
          promptTokens
          tokenizer := runtime.tokenizer
          completionModelId := runtime.completionModelId
          method := runtime.method.searchMethod
          consumeOperation := runtime.method.consumeOperation
          outputCountOperation := runtime.method.outputCountOperation
          outputCountIsContextError := runtime.method.outputCountIsContextError
          elapsed := runtime.elapsed }) true), s)

/-- `local_search_streaming`, and the same for the other searches. -/
def searchStreaming (session : Option (QueryExplainabilitySession σ ε)) (s : SessionState σ ε) :
    Except QueryError (CompletionState κ) × SessionState σ ε :=
  match runtime.prepareStream session s with
  | (.ok events, s) => (.ok events, s)
  | (.error error, s) => (.error error, observe session (·.finishQueryError error) s)

end QueryRuntime

/-- A stream is polled until its completed event, at most so often; `none` while the client
waits. -/
def aggregate (method : ExplainedMethod) (session : Option (QueryExplainabilitySession σ ε)) :
    ℕ → Option (CompletionState κ) → SessionState σ ε →
      Option (Except QueryError (QueryResult κ)) × SessionState σ ε
  | 0, _, s => (none, s)
  | polls + 1, state, s =>
    match CompletionState.nextCompletionEvent session state s with
    | (.pending, s) => (none, s)
    | (.ready (some (.ok (.completed result), _)), s) => (some (.ok result), s)
    | (.ready (some (.ok _, state)), s) => aggregate method session polls state s
    | (.ready (some (.error error, _)), s) => (some (.error error), s)
    | (.ready none, s) =>
      (some (.error (.queryCompletion method.searchMethod method.aggregateOperation "unknown"
        ("invalid model response for unknown during query stream: " ++
          "stream ended without a completed event"))), s)

/-- A client polls a stream so often, unless the stream ends before, and drops it. -/
def polls (session : Option (QueryExplainabilitySession σ ε)) :
    ℕ → Option (CompletionState κ) → SessionState σ ε → List (QueryItem κ) × SessionState σ ε
  | 0, _, s => ([], s)
  | count + 1, state, s =>
    match CompletionState.nextCompletionEvent session state s with
    | (.ready (some (item, state)), s) =>
      let (items, s) := polls session count state s
      (item :: items, s)
    | (_, s) => ([], s)

/-! ### The engine -/

/-- A request with its session, and what becomes of its runtime. -/
structure QueryOptions (κ σ ε : Type) where
  query : String
  session : Option (QueryExplainabilitySession σ ε)
  method : ExplainedMethod
  runtime : Except QueryError (QueryRuntime κ ε)
  sessionMethod : ∀ known, session = some known → known.method = method.queryMethod
  runtimeMethod : ∀ built, runtime = .ok built → built.method = method

namespace QueryEngine

variable (options : QueryOptions κ σ ε)

/-- `QueryInstrumentation::start`. -/
def start (sink : σ) : SessionState σ ε :=
  observe options.session (·.emitStart options.query) (.new sink)

def queryStreamInner (s : SessionState σ ε) :
    Except QueryError (CompletionState κ) × SessionState σ ε :=
  match options.runtime with
  | .error error => (.error error, s)
  | .ok runtime => runtime.searchStreaming options.session s

def queryInner (limit : ℕ) (s : SessionState σ ε) :
    Option (Except QueryError (QueryResult κ)) × SessionState σ ε :=
  match options.runtime with
  | .error error => (some (.error error), s)
  | .ok runtime =>
    match runtime.searchStreaming options.session s with
    | (.error error, s) => (some (.error error), s)
    | (.ok state, s) => aggregate options.method options.session limit (some state) s

def queryStream (sink : σ) : Except QueryError (CompletionState κ) × SessionState σ ε :=
  match queryStreamInner options (start options sink) with
  | (.error error, s) => (.error error, observe options.session (·.finishGraphloomError error) s)
  | (.ok state, s) => (.ok state, s)

/-- The answer of a query whose stream is polled at most so often. -/
def query (limit : ℕ) (sink : σ) : Option (Except QueryError (QueryResult κ)) × SessionState σ ε :=
  match queryInner options limit (start options sink) with
  | (some (.error error), s) =>
    (some (.error error), observe options.session (·.finishGraphloomError error) s)
  | (answer, s) => (answer, s)

end QueryEngine

end GraphLoom.Query.Streaming
