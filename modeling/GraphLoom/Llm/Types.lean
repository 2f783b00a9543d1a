import GraphLoom.Cache.Json

/-!
# Model requests and responses

The canonical requests of completion and embedding models, with the arguments that a provider may
have beside them, and their JSON.

The arguments of a configuration that are put into a completion request: those with a field of
their own are checked, those that the orchestration supplies are refused, and the others are handed
to the provider as they are.
-/

namespace GraphLoom.Llm

section Requests

open Foundation Json Cache

inductive LlmError where
  | cache (source : CacheError)
  | invalidRequest (operation message : String)
  | provider (modelInstance operation : String) (attempts : ℕ)
  | timeout (modelInstance operation : String) (attempts : ℕ)
  | invalidResponse (modelInstance operation message : String)
  | parse (kind message : String)
deriving DecidableEq, Repr

/-! ### Requests -/

inductive ChatRole where
  | system
  | user
  | assistant
  | developer
deriving DecidableEq, Repr

def ChatRole.toValue : ChatRole → Value
  | .system => .string "system"
  | .user => .string "user"
  | .assistant => .string "assistant"
  | .developer => .string "developer"

inductive MessageContent where
  | text (text : String)
  | parts (parts : List Value)

def MessageContent.toValue : MessageContent → Value
  | .text value => .string value
  | .parts values => .array values

structure ChatMessage where
  role : ChatRole
  content : MessageContent
  extra : Map

def ChatMessage.toValue (message : ChatMessage) : Value :=
  .object (Map.extend
    (.ofFields [("role", some message.role.toValue), ("content", some message.content.toValue)])
    message.extra)

def ChatMessage.user (content : String) : ChatMessage := ⟨.user, .text content, []⟩

/-- An assistant message has a nullable field beside its content. -/
def ChatMessage.assistant (content : String) : ChatMessage :=
  ⟨.assistant, .text content, Map.insert "refusal" .null []⟩

structure CompletionRequest where
  messages : List ChatMessage
  responseFormat : Option Value
  temperature : Option F64
  topP : Option F64
  maxTokens : Option UInt32
  maxCompletionTokens : Option UInt32
  n : Option UInt32
  seed : Option Int64
  stop : Option Value
  tools : Option (List Value)
  toolChoice : Option Value
  presencePenalty : Option F64
  frequencyPenalty : Option F64
  stream : Option Bool
  extra : Map

def CompletionRequest.new (messages : List ChatMessage) : CompletionRequest where
  messages := messages
  responseFormat := none
  temperature := none
  topP := none
  maxTokens := none
  maxCompletionTokens := none
  n := none
  seed := none
  stop := none
  tools := none
  toolChoice := none
  presencePenalty := none
  frequencyPenalty := none
  stream := none
  extra := []

def unsignedValue (value : UInt32) : Value := .number (.unsigned value.toUInt64)

def signedValue (value : Int64) : Value :=
  if 0 ≤ value then .number (.unsigned value.toUInt64) else .number (.signed value)

def CompletionRequest.toValue (request : CompletionRequest) : Map :=
  Map.extend
    (.ofFields [
      ("messages", some (.array (request.messages.map ChatMessage.toValue))),
      ("response_format", request.responseFormat),
      ("temperature", request.temperature.map ofF64),
      ("top_p", request.topP.map ofF64),
      ("max_tokens", request.maxTokens.map unsignedValue),
      ("max_completion_tokens", request.maxCompletionTokens.map unsignedValue),
      ("n", request.n.map unsignedValue),
      ("seed", request.seed.map signedValue),
      ("stop", request.stop),
      ("tools", request.tools.map Value.array),
      ("tool_choice", request.toolChoice),
      ("presence_penalty", request.presencePenalty.map ofF64),
      ("frequency_penalty", request.frequencyPenalty.map ofF64),
      ("stream", request.stream.map Value.bool)])
    request.extra

structure EmbeddingRequest where
  input : List String
  dimensions : Option UInt32
  encodingFormat : Option String
  user : Option String
  extra : Map

def EmbeddingRequest.new (input : List String) : EmbeddingRequest where
  input := input
  dimensions := none
  encodingFormat := none
  user := none
  extra := []

def EmbeddingRequest.toValue (request : EmbeddingRequest) : Map :=
  Map.extend
    (.ofFields [
      ("input", some (.array (request.input.map Value.string))),
      ("dimensions", request.dimensions.map unsignedValue),
      ("encoding_format", request.encodingFormat.map Value.string),
      ("user", request.user.map Value.string)])
    request.extra

/-! ### Validation -/

def completionReservedFields : List String :=
  ["messages", "response_format", "temperature", "top_p", "max_tokens", "max_completion_tokens", "n",
    "seed", "stop", "tools", "tool_choice", "presence_penalty", "frequency_penalty", "stream", "model"]

def embeddingReservedFields : List String :=
  ["input", "dimensions", "encoding_format", "user", "model"]

/-- The first extra argument that is one of the fields is refused. -/
def validateExtraFields (extra : Map) (reserved : List String) (operation : String) :
    Except LlmError Unit :=
  match (extra.map Prod.fst).find? (· ∈ reserved) with
  | some field => .error (.invalidRequest operation
      ("provider extra field \"" ++ field ++ "\" conflicts with a canonical field"))
  | none => .ok ()

def CompletionRequest.validate (request : CompletionRequest) : Except LlmError Unit :=
  validateExtraFields request.extra completionReservedFields "validate completion request"

def EmbeddingRequest.validate (request : EmbeddingRequest) : Except LlmError Unit :=
  validateExtraFields request.extra embeddingReservedFields "validate embedding request"

/-! ### Responses -/

inductive CacheStatus where
  | notUsed
  | hit
  | miss
deriving DecidableEq, Repr

structure ModelCallMetadata where
  cacheStatus : CacheStatus
deriving DecidableEq, Repr

/-- What a model answers: the part that its JSON says, which is that of `CompletionResponse` or of
`EmbeddingResponse`, and what is known of the call. -/
structure ModelResponse (α : Type) where
  wire : α
  metadata : ModelCallMetadata
deriving DecidableEq, Repr

def ModelResponse.withCacheStatus {α : Type} (response : ModelResponse α) (status : CacheStatus) :
    ModelResponse α :=
  { response with metadata := { response.metadata with cacheStatus := status } }

def ModelResponse.map {α β : Type} (f : α → β) (response : ModelResponse α) : ModelResponse β :=
  ⟨f response.wire, response.metadata⟩

/-- A completion model; it refuses what violates the invariants of canonical requests. -/
structure CompletionModel (γ : Type) where
  validateRequest : CompletionRequest → Except LlmError Unit
  complete : CompletionRequest → Except LlmError (ModelResponse γ)
  canonical : ∀ request, validateRequest request = .ok () → request.validate = .ok ()

/-- An embedding model; it refuses what violates the invariants of canonical requests. -/
structure EmbeddingModel (ε : Type) where
  validateRequest : EmbeddingRequest → Except LlmError Unit
  embed : EmbeddingRequest → Except LlmError (ModelResponse ε)
  canonical : ∀ request, validateRequest request = .ok () → request.validate = .ok ()

end Requests

/-! ## Call arguments of completions -/

section CallArguments

open Foundation Json

def ChatMessage.system (content : String) : ChatMessage := ⟨.system, .text content, []⟩

/-- Content in parts has no text. -/
def MessageContent.asStr : MessageContent → String
  | text value => value
  | parts _ => ""

def invalidCallArg (field message : String) : LlmError :=
  .invalidRequest "apply completion call_args"
    ("completion call_args field \"" ++ field ++ "\" " ++ message)

/-- `asF64` is `Number::as_f64`. -/
def finiteNumber (asF64 : Number → F64) (field : String) (value : Value) : Except LlmError F64 :=
  match value with
  | .number n =>
    if (asF64 n).isFinite then .ok (asF64 n)
    else .error (invalidCallArg field "must be a finite JSON number")
  | _ => .error (invalidCallArg field "must be a finite JSON number")

def unsignedInteger (field : String) (value : Value) : Except LlmError UInt32 :=
  match value with
  | .number (.unsigned raw) =>
    if raw.toNat < 2 ^ 32 then .ok raw.toUInt32
    else .error (invalidCallArg field "exceeds u32")
  | _ => .error (invalidCallArg field "must be a non-negative JSON integer")

def signedInteger (field : String) (value : Value) : Except LlmError Int64 :=
  match value with
  | .number (.unsigned raw) =>
    if raw.toNat < 2 ^ 63 then .ok raw.toInt64
    else .error (invalidCallArg field "must be a JSON integer within i64")
  | .number (.signed raw) => .ok raw
  | _ => .error (invalidCallArg field "must be a JSON integer within i64")

namespace CompletionRequest

def applyCallArg (asF64 : Number → F64) (request : CompletionRequest) (field : String)
    (value : Value) : Except LlmError CompletionRequest :=
  match field with
  | "temperature" => do
    let value ← finiteNumber asF64 field value
    return { request with temperature := some value }
  | "top_p" => do
    let value ← finiteNumber asF64 field value
    return { request with topP := some value }
  | "max_tokens" => do
    let value ← unsignedInteger field value
    return { request with maxTokens := some value }
  | "max_completion_tokens" => do
    let value ← unsignedInteger field value
    return { request with maxCompletionTokens := some value }
  | "n" => do
    let value ← unsignedInteger field value
    return { request with n := some value }
  | "seed" => do
    let value ← signedInteger field value
    return { request with seed := some value }
  | "stop" => .ok { request with stop := some value }
  | "tools" =>
    match value with
    | .array values => .ok { request with tools := some values }
    | _ => .error (invalidCallArg field "must be a JSON array")
  | "tool_choice" => .ok { request with toolChoice := some value }
  | "presence_penalty" => do
    let value ← finiteNumber asF64 field value
    return { request with presencePenalty := some value }
  | "frequency_penalty" => do
    let value ← finiteNumber asF64 field value
    return { request with frequencyPenalty := some value }
  | "response_format" => .ok { request with responseFormat := some value }
  | "stream" =>
    match value with
    | .bool value => .ok { request with stream := some value }
    | _ => .error (invalidCallArg field "must be a JSON boolean")
  | "model" => .ok request
  | _ =>
    if field ∈ completionReservedFields then
      .error (invalidCallArg field "is supplied by the completion orchestration")
    else .ok { request with extra := Map.insert field value request.extra }

def applyCallArgs (asF64 : Number → F64) (callArgs : Map) (request : CompletionRequest) :
    Except LlmError CompletionRequest :=
  callArgs.foldlM (fun request arg => request.applyCallArg asF64 arg.1 arg.2) request

end CompletionRequest

end CallArguments

end GraphLoom.Llm
