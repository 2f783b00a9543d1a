import GraphLoom.Foundation.Machine
import GraphLoom.Llm.Types

/-!
# Cached models

The key of a request is a digest of its arguments, without those that do not bear on the answer.
The digest is a parameter: in the source it is the SHA-256 of the arguments as YAML.

Completion and embedding models behind a cache.  The providers may fail at any call; a world has the
namespace of the cache that the models share, and the requests that the providers have been asked.
-/

namespace GraphLoom.Llm

section CacheKeys

open Foundation Json

def cacheVersion : String := "4"

def excludedKeys : List String :=
  ["metrics", "stream", "stream_options", "mock_response", "timeout", "base_url", "api_base",
    "api_version", "api_key", "azure_ad_token_provider", "drop_params"]

def filterCacheParameters : Value → Value
  | .object entries => .object (entries.filter fun entry => entry.1 ∉ excludedKeys)
  | value => value

variable (digest : Value → Except LlmError String)

def graphragCacheKey (inputArgs : Value) : Except LlmError String := do
  let hash ← digest (filterCacheParameters inputArgs)
  .ok (hash ++ "_v" ++ cacheVersion)

/-- The arguments of a completion that are hashed say that there is no format when there is none. -/
def CompletionRequest.kwargs (request : CompletionRequest) : Value :=
  .object (Map.orInsert "response_format" .null request.toValue)

def EmbeddingRequest.kwargs (request : EmbeddingRequest) : Value := .object request.toValue

def completionRequestCacheKey (request : CompletionRequest) : Except LlmError String := do
  request.validate
  graphragCacheKey digest request.kwargs

def embeddingRequestCacheKey (request : EmbeddingRequest) : Except LlmError String := do
  request.validate
  graphragCacheKey digest request.kwargs

end CacheKeys

/-! ## Cached models -/

section CachedModels

open Foundation Json Cache

variable {β α γ ε : Type} [Text β]

/-! ### Cached results -/

structure CachedModelResult (α : Type) where
  response : ModelResponse α
  metrics : Map

variable [Serde α]

/-- The metadata of a response is not part of its JSON. -/
def ModelResponse.fromValue (value : Value) : Option (ModelResponse α) :=
  (Serde.fromValue value).map fun wire => ⟨wire, ⟨.notUsed⟩⟩

def CachedModelResult.toValue (cached : CachedModelResult α) : Value :=
  .object (Map.ofFields [
    ("response", some (Serde.toValue cached.response.wire)),
    ("metrics", some (.object cached.metrics))])

/-- A result is an object with its fields, or an array of their values; the metrics may be left
out. -/
def CachedModelResult.fromValue (value : Value) : Option (CachedModelResult α) :=
  let result (response : Value) (metrics : Option Value) : Option (CachedModelResult α) := do
    let response ← ModelResponse.fromValue response
    match metrics with
    | none => some ⟨response, []⟩
    | some (.object metrics) => some ⟨response, metrics⟩
    | some _ => none
  match value with
  | .object entries => do
    let response ← Map.get entries "response"
    result response (Map.get entries "metrics")
  | .array [response] => result response none
  | .array [response, metrics] => result response (some metrics)
  | _ => none

def readCached (key : String) (storage : Storage β) :
    Option (CachedModelResult α) × Storage β :=
  match JsonCache.get key storage with
  | (none, storage) => (none, storage)
  | (some bytes, storage) =>
    match (Text.fromSlice bytes).bind CachedModelResult.fromValue with
    | some cached => (some cached, storage)
    | none => (none, JsonCache.delete key storage)

def writeCached (key : String) (response : ModelResponse α) (storage : Storage β) :
    Except LlmError Unit × Storage β :=
  let value : CachedModelResult α := ⟨response, []⟩
  match JsonCache.set key (Text.toVec value.toValue) storage with
  | (.error source, storage) => (.error (.cache source), storage)
  | (.ok (), storage) => (.ok (), storage)

/-! ### Bypassing -/

def isTruthy : Value → Bool
  | .null => false
  | .bool value => value
  | .number (.unsigned value) => value != 0
  | .number (.signed value) => value != 0
  | .number (.float value) => !value.isZero
  | .string value => value != ""
  | .array values => !values.isEmpty
  | .object entries => !entries.isEmpty

def hasTruthyExtra (extra : Map) (key : String) : Bool := (extra.get key).any isTruthy

def CompletionRequest.bypasses (request : CompletionRequest) : Bool :=
  request.stream == some true || hasTruthyExtra request.extra "mock_response"

def EmbeddingRequest.bypasses (request : EmbeddingRequest) : Bool :=
  hasTruthyExtra request.extra "mock_response"

/-! ### Calls -/

inductive Call where
  | complete (request : CompletionRequest)
  | embed (request : EmbeddingRequest)

/-- The providers behind the cache, and the failures of theirs that do not come from the request, by
the number of requests asked before. -/
structure Models (γ ε : Type) where
  completion : CompletionModel γ
  embedding : EmbeddingModel ε
  outage : ℕ → Option LlmError

structure World (β : Type) where
  storage : Storage β
  asked : List Call

/-- What a provider returns when it is asked: it fails, or gives its answer to the request. -/
def returned (outage : Option LlmError) (answer : Except LlmError (ModelResponse α)) :
    Except LlmError (ModelResponse α) :=
  match outage with
  | some error => .error error
  | none => answer

def ask (outage : ℕ → Option LlmError) (call : Call) (answer : Except LlmError (ModelResponse α))
    (world : World β) : Except LlmError (ModelResponse α) × World β :=
  (returned (outage world.asked.length) answer, { world with asked := world.asked ++ [call] })

/-- What `complete` and `embed` of the cached models have in common. -/
def cachedCall (valid : Except LlmError Unit) (bypasses : Bool) (cacheKey : Except LlmError String)
    (inner : World β → Except LlmError (ModelResponse α) × World β) (world : World β) :
    Except LlmError (ModelResponse α) × World β :=
  match valid with
  | .error error => (.error error, world)
  | .ok () =>
    if bypasses then inner world
    else match cacheKey with
      | .error error => (.error error, world)
      | .ok key => match (readCached key world.storage : Option (CachedModelResult α) × Storage β) with
        | (some cached, storage) =>
          (.ok (cached.response.withCacheStatus .hit), { world with storage := storage })
        | (none, storage) => match inner { world with storage := storage } with
          | (.error error, world) => (.error error, world)
          | (.ok response, world) =>
            let response := response.withCacheStatus .miss
            match writeCached key response world.storage with
            | (.error error, storage) => (.error error, { world with storage := storage })
            | (.ok (), storage) => (.ok response, { world with storage := storage })

variable (digest : Value → Except LlmError String) (models : Models γ ε)

def CachedCompletionModel.complete [Serde γ] (request : CompletionRequest) (world : World β) :
    Except LlmError (ModelResponse γ) × World β :=
  cachedCall (models.completion.validateRequest request) request.bypasses
    (completionRequestCacheKey digest request)
    (ask models.outage (.complete request) (models.completion.complete request)) world

def CachedEmbeddingModel.embed [Serde ε] (request : EmbeddingRequest) (world : World β) :
    Except LlmError (ModelResponse ε) × World β :=
  cachedCall (models.embedding.validateRequest request) request.bypasses
    (embeddingRequestCacheKey digest request)
    (ask models.outage (.embed request) (models.embedding.embed request)) world

/-- What a call is told, by a completion model or by an embedding model. -/
abbrev Reply (γ ε : Type) := Except LlmError (ModelResponse (γ ⊕ ε))

def cachedModels [Serde γ] [Serde ε] (storage : Storage β) :
    Machine (World β) Call (Reply γ ε) where
  init := ⟨storage, []⟩
  step world
    | .complete request =>
      let (reply, world) := CachedCompletionModel.complete digest models request world
      (reply.map (·.map Sum.inl), world)
    | .embed request =>
      let (reply, world) := CachedEmbeddingModel.embed digest models request world
      (reply.map (·.map Sum.inr), world)

end CachedModels

end GraphLoom.Llm
