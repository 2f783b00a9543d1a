import GraphLoom.Foundation.InsertionMap
import GraphLoom.Query.Basic.Explainability

/-!
# The context of a Basic query

The text units that the vector index finds for the query, in the order of the table, as many as the
budget takes.  A query with a session also records what was found and what was decided.
-/

namespace GraphLoom.Query.Basic

open GraphLoom.Explainability Foundation

/-! ### Computations that record -/

/-- A fallible computation with the session of the query as its state. -/
def Recording (α : Type) : Type := Session → Except QueryError α × Session

namespace Recording

variable {α β : Type}

instance : Monad Recording where
  pure a := fun s => (.ok a, s)
  bind x f := fun s =>
    match x s with
    | (.ok a, s) => f a s
    | (.error e, s) => (.error e, s)

def lift (x : Except QueryError α) : Recording α := fun s => (x, s)

def ofState (f : Session → α × Session) : Recording α := fun s => (.ok (f s).1, (f s).2)

/-- Records only when there is a session. -/
def observe (explainability : Option BasicQueryExplainability)
    (record : BasicQueryExplainability → Session → Session) : Recording Unit := fun s =>
  match explainability with
  | some session => (.ok (), record session s)
  | none => (.ok (), s)

end Recording

open Recording BasicQueryExplainability

/-! ### The builder -/

structure EmbeddingResponse where
  promptTokens : ℕ
  embeddings : List (List F64)

/-- The score is `f64::from` of an `f32`. -/
structure VectorSearchResult where
  documentId : String
  score : F64

/-- The model, the index, the tokenizer and the writer of CSV are what the configuration names. -/
structure BasicContextBuilder where
  textUnits : List TextUnit
  k : ℕ
  maxContextTokens : ℕ
  embeddingModelId : String
  embed : List String → Except String EmbeddingResponse
  indexName : String
  similaritySearchByVector : List F64 → ℕ → Except VectorError (List VectorSearchResult)
  tokenizer : Tokenizer
  csv : CsvWriter

structure AnnCandidateMetadata where
  score : Option ExplainabilityScore
  rank : Option ℕ

structure BasicRetrievalBuild where
  matchedIds : List String
  usage : QueryUsageCategory
  metadataById : Option (InsertionMap String AnnCandidateMetadata)

structure BasicBudgetBuild where
  selected : List TextUnit
  tokensUsed : ℕ
  truncated : Bool

/-- The text of a context and the rows of its sources, with their identifiers and texts. -/
structure QueryContext where
  text : String
  sources : List (String × String)

structure BasicContextBuild where
  context : QueryContext
  usage : QueryUsageCategory

/-- Tokens that the provider has not counted are counted here. -/
def resolveEmbeddingPromptTokens (providerPromptTokens : ℕ) (input : String)
    (tokenizer : Tokenizer) (method : SearchMethod) (operation modelId : String) :
    Except QueryError ℕ :=
  let providerPromptTokens := min providerPromptTokens usizeMax
  if 0 < providerPromptTokens then .ok providerPromptTokens
  else
    match tokenizer.count input with
    | .ok tokens => .ok tokens
    | .error message => .error (.queryEmbedding method operation modelId message)

def pandasEscapeField (value : String) : String := value.replace "\\" "\\\\"

namespace BasicContextBuilder

variable (builder : BasicContextBuilder)

/-! ### The budget -/

def countSources (text : String) : Except QueryError ℕ :=
  contextError .basic "count Sources tokens" (builder.tokenizer.count text)

/-- The loop over the candidates ends at the first that the budget does not take. -/
def takeWithinBudget (tokens : ℕ) (selected : List TextUnit) :
    List TextUnit → Except QueryError (List TextUnit × ℕ)
  | [] => .ok (selected, tokens)
  | textUnit :: candidates => do
    let rowTokens ← builder.countSources (textUnit.shortId ++ "|" ++ textUnit.text ++ "\n")
    if builder.maxContextTokens < usizeAdd tokens rowTokens then return (selected, tokens)
    else takeWithinBudget (usizeAdd tokens rowTokens) (selected ++ [textUnit]) candidates

def withinBudget (candidates : List TextUnit) : Except QueryError BasicBudgetBuild := do
  let tokens ← builder.countSources "id|text\n"
  let (selected, tokens) ← builder.takeWithinBudget tokens [] candidates
  return ⟨selected, tokens, selected.length < candidates.length⟩

def renderSources (textUnits : List TextUnit) : Except QueryError String :=
  contextError .basic "render Sources CSV" (builder.csv (["id", "text"] ::
    textUnits.map fun textUnit =>
      [pandasEscapeField textUnit.shortId, pandasEscapeField textUnit.text]))

/-! ### What is recorded -/

/-- The short identifiers of the text units; the last text unit of an identifier counts. -/
def shortIds : InsertionMap String String :=
  builder.textUnits.foldl (fun shortIds textUnit => shortIds.set textUnit.id textUnit.shortId) []

/-- The candidate of one result at its index. -/
def annCandidate (result : VectorSearchResult) (index : ℕ) (s : Session) :
    ExplainabilityCandidate × Session :=
  let (rank, s) := usizeToU32 (usizeAdd index 1) s
  let score := ExplainabilityScore.tryFrom result.score
  let s := if score.isNone then markSidecarFailure s else s
  ({ ExplainabilityCandidate.new result.documentId .textUnit with
      shortId := builder.shortIds.get result.documentId
      score := score
      rank := rank
      reason := some .annResult }, s)

/-- `entry(id).or_insert(metadata)`: the first result of a document counts. -/
def insertMetadata (metadataById : InsertionMap String AnnCandidateMetadata)
    (candidate : ExplainabilityCandidate) : InsertionMap String AnnCandidateMetadata :=
  match metadataById.get candidate.id with
  | some _ => metadataById
  | none => metadataById.set candidate.id ⟨candidate.score, candidate.rank⟩

/-- The candidates and the metadata of results from an index on. -/
def annCandidates (index : ℕ) : List VectorSearchResult → Session →
    List ExplainabilityCandidate × Session
  | [], s => ([], s)
  | result :: results, s =>
    let (candidate, s) := builder.annCandidate result index s
    let (candidates, s) := annCandidates (index + 1) results s
    (candidate :: candidates, s)

def emitRetrievedCandidates (session : BasicQueryExplainability)
    (results : List VectorSearchResult) (s : Session) :
    InsertionMap String AnnCandidateMetadata × Session :=
  let (candidates, s) := builder.annCandidates 0 results s
  (candidates.foldl insertMetadata [], session.emitContract session.retrieval
    (some session.rootSpan) (candidatesTryNew .candidatesRetrieved .textUnit candidates) s)

def emitContextBudget (session : BasicQueryExplainability) (s : Session) : Session :=
  match usizeToU64 builder.maxContextTokens s with
  | (none, s) => s
  | (some tokenBudget, s) =>
    session.emit session.context (some session.rootSpan)
      (.contextBudgetAllocated tokenBudget [(.sources, tokenBudget)]) s

/-- The decision on a candidate at its index. -/
def decision (selectedCount : ℕ) (metadataById : InsertionMap String AnnCandidateMetadata)
    (textUnit : TextUnit) (index : ℕ) : ExplainabilityCandidate :=
  let metadata := metadataById.get textUnit.id
  let selected : Bool := index < selectedCount
  { ExplainabilityCandidate.new textUnit.id .textUnit with
    shortId := some textUnit.shortId
    score := metadata.bind (·.score)
    rank := metadata.bind (·.rank)
    selected := selected
    reason := some (if selected then .annResult else .tokenBudget) }

def emitFilteredCandidates (candidates : List TextUnit) (selectedCount : ℕ)
    (metadataById : Option (InsertionMap String AnnCandidateMetadata))
    (session : BasicQueryExplainability) (s : Session) : Session :=
  match metadataById with
  | none => s
  | some metadataById =>
    let decisions := candidates.zipIdx.map fun (textUnit, index) =>
      decision selectedCount metadataById textUnit index
    session.emitContract session.retrieval (some session.rootSpan)
      (candidatesTryNew .candidatesFiltered .textUnit decisions) s

def emitContextCompleted (candidates : List TextUnit) (fitted : BasicBudgetBuild)
    (contextText : String) (session : BasicQueryExplainability) (s : Session) : Session :=
  let (tokenBudget, s) := usizeToU64 builder.maxContextTokens s
  let (tokensUsed, s) := usizeToU64 fitted.tokensUsed s
  let (candidateCount, s) := usizeToU64 candidates.length s
  let (selectedCount, s) := usizeToU64 fitted.selected.length s
  match tokenBudget, tokensUsed, candidateCount, selectedCount with
  | some tokenBudget, some tokensUsed, some candidateCount, some selectedCount =>
    let s := session.emit session.context (some session.rootSpan)
      (.contextSectionBuilt ⟨.sources, tokenBudget, tokensUsed, candidateCount, selectedCount,
        fitted.truncated, fitted.selected.map (·.id)⟩) s
    session.emit session.context (some session.rootSpan)
      (.contextCompleted tokensUsed (session.content contextText)) s
  | _, _, _, _ => s

/-! ### The build -/

def embeddingError {α : Type} (operation message : String) : Except QueryError α :=
  .error (.queryEmbedding .basic operation builder.embeddingModelId message)

def invalidResponse (message : String) : String :=
  "invalid model response for " ++ builder.embeddingModelId ++
    " during embedding conversion: " ++ message

/-- The embedding of the query and its tokens. -/
def embedQuery (query : String) : Except QueryError (ℕ × List F64) := do
  let response ← match builder.embed [query] with
    | .ok response => .ok response
    | .error message => builder.embeddingError "embed Basic Search query" message
  let promptTokens ← resolveEmbeddingPromptTokens response.promptTokens query builder.tokenizer
    .basic "count Basic Search embedding input tokens" builder.embeddingModelId
  let vector ← match response.embeddings.head? with
    | some vector => .ok vector
    | none =>
      builder.embeddingError "read Basic Search query embedding"
        (builder.invalidResponse "provider returned no query embedding")
  if vector.any fun value => !value.isFinite then
    builder.embeddingError "validate Basic Search query embedding"
      (builder.invalidResponse "provider returned a non-finite query embedding")
  else return (promptTokens, vector)

def emitEmbeddingStarted (query : String) (session : BasicQueryExplainability) (s : Session) :
    Session :=
  session.emit session.embedding (some session.rootSpan)
    (.embeddingStarted builder.embeddingModelId (session.content query)) s

def emitEmbeddingCompleted (promptTokens dimensions : ℕ) (session : BasicQueryExplainability)
    (s : Session) : Session :=
  let (promptTokens, s) := usizeToU64 promptTokens s
  let (dimensions, s) := usizeToU32 dimensions s
  match promptTokens, dimensions with
  | some promptTokens, some dimensions =>
    session.emit session.embedding (some session.rootSpan)
      (.embeddingCompleted builder.embeddingModelId promptTokens dimensions) s
  | _, _ => s

def search (vector : List F64) : Except QueryError (List VectorSearchResult) :=
  match builder.similaritySearchByVector vector builder.k with
  | .ok results => .ok results
  | .error (.missingIndex index) =>
    .error (.missingVectorIndex .basic "search text_unit_text" builder.indexName
      (.missingIndex index))
  | .error source =>
    .error (.invalidVectorIndex .basic "search text_unit_text" builder.indexName source)

def retrieve (query : String) (explainability : Option BasicQueryExplainability) :
    Recording BasicRetrievalBuild := do
  observe explainability (builder.emitEmbeddingStarted query)
  let (promptTokens, vector) ← lift (builder.embedQuery query)
  observe explainability (builder.emitEmbeddingCompleted promptTokens vector.length)
  let results ← lift (builder.search vector)
  let metadataById ← match explainability with
    | none => pure none
    | some session =>
      ofState fun s =>
        let (metadataById, s) := builder.emitRetrievedCandidates session results s
        (some metadataById, s)
  return ⟨results.map (·.documentId), ⟨1, promptTokens, 0⟩, metadataById⟩

def emitRetrievalSkipped (session : BasicQueryExplainability) (s : Session) : Session :=
  session.emit session.retrieval (some session.rootSpan) (.basicRetrievalSkipped .emptyQuery) s

/-- An empty query matches nothing. -/
def retrieveUnlessEmpty (query : String) (explainability : Option BasicQueryExplainability) :
    Recording BasicRetrievalBuild :=
  if query = "" then do
    observe explainability emitRetrievalSkipped
    return ⟨[], QueryUsageCategory.none, explainability.map fun _ => []⟩
  else builder.retrieve query explainability

def buildExplainable (query : String) (explainability : Option BasicQueryExplainability) :
    Recording BasicContextBuild := do
  let retrieved ← builder.retrieveUnlessEmpty query explainability
  let candidates := builder.textUnits.filter (·.id ∈ retrieved.matchedIds)
  observe explainability builder.emitContextBudget
  let fitted ← lift (builder.withinBudget candidates)
  observe explainability
    (emitFilteredCandidates candidates fitted.selected.length retrieved.metadataById)
  let contextText ← lift (builder.renderSources fitted.selected)
  observe explainability (builder.emitContextCompleted candidates fitted contextText)
  return ⟨⟨contextText, fitted.selected.map fun textUnit => (textUnit.shortId, textUnit.text)⟩,
    retrieved.usage⟩

end BasicContextBuilder

end GraphLoom.Query.Basic
