import GraphLoom.Dataframe
import GraphLoom.Foundation.BufferUnordered
import GraphLoom.Text

/-!
# Embedding the texts of rows

The texts of the rows are split into snippets, the snippets are sent to the model in batches with at
most `concurrency` calls in flight, and the vectors that come back are collected by row: a row with
several snippets gets the normalized mean of their vectors.

The text splitter, the tokenizer and the model are the fields of `EmbeddingTools`, and the
operations on floating-point numbers those of `Arithmetic`.
-/

namespace GraphLoom.Embeddings

open Foundation

/-- Operations on floating-point numbers.  A value of `f32` is one of `f64`. -/
structure Arithmetic (F : Type) where
  zero : F
  add : F → F → F
  mul : F → F → F
  div : F → F → F
  sqrt : F → F
  ofU32 : ℕ → F
  isFinite : F → Bool
  -- `value.abs() > f64::from(f32::MAX)`
  outsideF32 : F → Bool
  -- `value <= 0.0`
  nonPositive : F → Bool
  toF32 : F → F
  display : F → String

structure EmbeddingSourceRow where
  id : String
  text : String
deriving DecidableEq, Repr

/-- A slice of rows.  Its length is a `usize`. -/
structure SourceRows where
  rows : List EmbeddingSourceRow
  length_le : rows.length ≤ usizeMax

structure EmbeddingOperationConfig where
  workflowName : String
  batchSize : ℕ
  batchMaxTokens : ℕ
  concurrency : ℕ
  chunkOverlap : ℕ
  expectedVectorSize : ℕ
  embeddingName : String
deriving DecidableEq, Repr

structure VectorDocument (F : Type) where
  id : String
  vector : List F
deriving DecidableEq, Repr

structure EmbeddingBatchOutput (F : Type) where
  documents : List (VectorDocument F)
  attemptedRows : ℕ
  skippedRows : ℕ
  snippetCount : ℕ
  requestCount : ℕ
  cacheHits : ℕ
  cacheMisses : ℕ
  inputTokens : ℕ
deriving DecidableEq, Repr

inductive CacheStatus where
  | notUsed
  | hit
  | miss
deriving DecidableEq, Repr

structure EmbeddingResponse (F : Type) where
  embeddings : List (List F)
  cacheStatus : CacheStatus
deriving DecidableEq, Repr

structure Snippet where
  rowIndex : ℕ
  text : String
  tokenCount : ℕ
deriving DecidableEq, Repr

structure ApiBatch where
  index : ℕ
  snippets : List Snippet
  tokenCount : ℕ
deriving DecidableEq, Repr

structure ApiBatchResult (F : Type) where
  index : ℕ
  rowIndices : List ℕ
  embeddings : List (List F)
  requestCount : ℕ
  cacheHits : ℕ
  cacheMisses : ℕ
  inputTokens : ℕ
deriving DecidableEq, Repr

structure EmbeddingTools (F : Type) where
  /-- The chunks of a text with at most so many tokens and the given overlap. -/
  splitTextOnTokens : String → ℕ → ℕ → Except GraphLoomError (List String)
  count : String → Except GraphLoomError ℕ
  /-- The answer to the call for the batch with the given number.  Equal inputs need not get equal
  answers. -/
  embed : ℕ → List String → Except GraphLoomError (EmbeddingResponse F)

variable {F : Type} (ops : Arithmetic F) (tools : EmbeddingTools F)
  (config : EmbeddingOperationConfig)

def invalidData {α : Type} (message : String) : Except GraphLoomError α :=
  .error (.invalidData config.workflowName message)

/-! ### Snippets -/

def validateConfig : Except GraphLoomError Unit :=
  if config.batchSize = 0 then invalidData config "batch_size must be greater than zero"
  else if config.batchMaxTokens ≤ config.chunkOverlap then
    invalidData config ("batch_max_tokens " ++ toString config.batchMaxTokens ++
      " must be greater than chunk_overlap " ++ toString config.chunkOverlap)
  else if config.expectedVectorSize = 0 then
    invalidData config "expected_vector_size must be greater than zero"
  else .ok ()

def validateSourceIds (rows : List EmbeddingSourceRow) : Except GraphLoomError Unit :=
  rows.forM fun row =>
    if row.id.isEmpty then
      invalidData config (config.embeddingName ++ " source row id must not be empty")
    else .ok ()

/-- The chunks of a row.  A row of white space has none. -/
def chunksOfRow (row : EmbeddingSourceRow) : Except GraphLoomError (List String) :=
  if (trim row.text).isEmpty then .ok []
  else tools.splitTextOnTokens row.text config.batchMaxTokens config.chunkOverlap

def snippetsOfRow (row : EmbeddingSourceRow × ℕ) : Except GraphLoomError (List Snippet) := do
  let chunks ← chunksOfRow tools config row.1
  chunks.mapM fun chunk => do
    let tokenCount ← tools.count chunk
    .ok { rowIndex := row.2, text := chunk, tokenCount }

def prepareSnippets (rows : List EmbeddingSourceRow) : Except GraphLoomError (List Snippet) := do
  let snippets ← rows.zipIdx.mapM (snippetsOfRow tools config)
  .ok snippets.flatten

/-! ### Batches -/

/-- The batches that are complete, and the one that is being filled. -/
structure BatchState where
  batches : List ApiBatch
  current : List Snippet
  currentTokens : ℕ

def BatchState.flush (state : BatchState) : BatchState where
  batches := state.batches ++ [⟨state.batches.length, state.current, state.currentTokens⟩]
  current := []
  currentTokens := 0

def BatchState.push (state : BatchState) (snippet : Snippet) : BatchState :=
  { state with
    current := state.current ++ [snippet]
    currentTokens := usizeAdd state.currentTokens snippet.tokenCount }

def BatchState.wouldExceed (state : BatchState) (snippet : Snippet) : Bool :=
  let wouldExceedSize := config.batchSize ≤ state.current.length
  let wouldExceedTokens := state.current ≠ [] ∧
    config.batchMaxTokens < usizeAdd state.currentTokens snippet.tokenCount
  wouldExceedSize ∨ wouldExceedTokens

def addSnippet (state : BatchState) (snippet : Snippet) : BatchState :=
  if state.wouldExceed config snippet then state.flush.push snippet else state.push snippet

def buildBatches (snippets : List Snippet) : List ApiBatch :=
  let state := snippets.foldl (addSnippet config) ⟨[], [], 0⟩
  if state.current.isEmpty then state.batches else state.flush.batches

/-! ### Calls of the model -/

/-- Check a vector of a response, given the dimension of the vectors before it. -/
def validateVector (batchIndex : ℕ) (responseDimension : Option ℕ) (entry : List F × ℕ) :
    Except GraphLoomError (Option ℕ) :=
  let vector := entry.1
  let subject := config.embeddingName ++ " batch " ++ toString batchIndex
  let name := subject ++ " vector " ++ toString entry.2
  if vector.isEmpty then invalidData config (name ++ " is empty")
  else if vector.any fun value => !ops.isFinite value then
    invalidData config (name ++ " contains non-finite value")
  else if vector.any ops.outsideF32 then
    invalidData config (name ++ " contains a value outside the f32 range")
  else if responseDimension.any fun dimension => dimension ≠ vector.length then
    invalidData config (subject ++ " inconsistent dimensions: expected " ++
      toString (responseDimension.getD 0) ++ ", got " ++ toString vector.length)
  else if vector.length ≠ config.expectedVectorSize then
    invalidData config (name ++ " expected dimension " ++ toString config.expectedVectorSize ++
      ", got " ++ toString vector.length)
  else .ok (responseDimension.or (some vector.length))

def validateResponse (batchIndex expectedCount : ℕ) (response : EmbeddingResponse F) :
    Except GraphLoomError (List (List F)) :=
  if response.embeddings.length ≠ expectedCount then
    invalidData config (config.embeddingName ++ " batch " ++ toString batchIndex ++ " expected " ++
      toString expectedCount ++ " embeddings, got " ++ toString response.embeddings.length)
  else do
    let _ ← response.embeddings.zipIdx.foldlM (validateVector ops config batchIndex) none
    .ok (response.embeddings.map fun embedding => embedding.map ops.toF32)

def executeBatch (batch : ApiBatch) : Except GraphLoomError (ApiBatchResult F) := do
  let response ← tools.embed batch.index (batch.snippets.map Snippet.text)
  let embeddings ← validateResponse ops config batch.index batch.snippets.length response
  let called := response.cacheStatus ≠ .hit
  .ok
    { index := batch.index
      rowIndices := batch.snippets.map Snippet.rowIndex
      embeddings
      requestCount := if called then 1 else 0
      cacheHits := if response.cacheStatus = .hit then 1 else 0
      cacheMisses := if response.cacheStatus = .miss then 1 else 0
      inputTokens := if called then batch.tokenCount else 0 }

/-! ### Vectors of rows -/

def addRowVector (batchIndex : ℕ) (vectors : List (List (List F))) (entry : ℕ × List F) :
    Except GraphLoomError (List (List (List F))) :=
  if entry.1 < vectors.length then .ok (vectors.modify entry.1 fun rowVectors => rowVectors ++ [entry.2])
  else invalidData config ("batch " ++ toString batchIndex ++ " produced out-of-range row index " ++
    toString entry.1)

def addResult (vectors : List (List (List F))) (result : ApiBatchResult F) :
    Except GraphLoomError (List (List (List F))) :=
  if result.rowIndices.length ≠ result.embeddings.length then
    invalidData config ("batch " ++ toString result.index ++ " has " ++
      toString result.rowIndices.length ++ " row indices but " ++
      toString result.embeddings.length ++ " embeddings")
  else (result.rowIndices.zip result.embeddings).foldlM (addRowVector config result.index) vectors

def collectRowVectors (rowCount : ℕ) (results : List (ApiBatchResult F)) :
    Except GraphLoomError (List (List (List F))) :=
  results.foldlM (addResult config) (List.replicate rowCount [])

/-- Add a vector to the sums, coordinate by coordinate. -/
def addValues : List F → List F → List F
  | sum :: sums, value :: values => ops.add sum value :: addValues sums values
  | sums, [] => sums
  | [], _ => []

def addFragment (rowIndex : ℕ) (sums vector : List F) : Except GraphLoomError (List F) :=
  if vector.length ≠ config.expectedVectorSize then
    invalidData config (config.embeddingName ++ " row " ++ toString rowIndex ++
      " expected dimension " ++ toString config.expectedVectorSize ++ ", got " ++
      toString vector.length ++ " during reconstitution")
  else .ok (addValues ops sums vector)

def normalizeValue (rowIndex : ℕ) (norm value : F) : Except GraphLoomError F :=
  let normalized := ops.div value norm
  if ops.isFinite normalized then .ok (ops.toF32 normalized)
  else invalidData config (config.embeddingName ++ " row " ++ toString rowIndex ++
    " normalized vector contains non-finite value")

def reconstituteVectors (vectors : List (List F)) (rowIndex : ℕ) :
    Except GraphLoomError (Option (List F)) :=
  match vectors with
  | [] => .ok none
  | [vector] => .ok (some vector)
  | vectors => do
    let sums ← vectors.foldlM (addFragment ops config rowIndex)
      (List.replicate config.expectedVectorSize ops.zero)
    let name := config.embeddingName ++ " row " ++ toString rowIndex
    if vectors.length ≤ u32Max then
      let divisor := ops.ofU32 vectors.length
      let means := sums.map fun sum => ops.div sum divisor
      let norm := ops.sqrt ((means.map fun value => ops.mul value value).foldl ops.add ops.zero)
      if !ops.isFinite norm || ops.nonPositive norm then
        invalidData config (name ++ " averaged vector has invalid L2 norm " ++ ops.display norm)
      else do
        let normalized ← means.mapM (normalizeValue ops config rowIndex norm)
        .ok (some normalized)
    else invalidData config (name ++ " has too many vector fragments")

/-! ### The operation -/

def addDocument (rows : List EmbeddingSourceRow) (output : EmbeddingBatchOutput F)
    (entry : List (List F) × ℕ) : Except GraphLoomError (EmbeddingBatchOutput F) := do
  match ← reconstituteVectors ops config entry.1 entry.2 with
  | none => .ok { output with skippedRows := usizeAdd output.skippedRows 1 }
  | some vector =>
    -- there is a list of vectors for each row, so that the row is there
    let row := rows[entry.2]?.toList.map fun row => ⟨row.id, vector⟩
    .ok { output with documents := output.documents ++ row }

def addUsage (output : EmbeddingBatchOutput F) (result : ApiBatchResult F) :
    EmbeddingBatchOutput F :=
  { output with
    requestCount := usizeAdd output.requestCount result.requestCount
    cacheHits := usizeAdd output.cacheHits result.cacheHits
    cacheMisses := usizeAdd output.cacheMisses result.cacheMisses
    inputTokens := usizeAdd output.inputTokens result.inputTokens }

/-- The output before a batch ran. -/
def initialOutput (rows : List EmbeddingSourceRow) (snippets : List Snippet) :
    EmbeddingBatchOutput F where
  documents := []
  attemptedRows := rows.length
  skippedRows := 0
  snippetCount := snippets.length
  requestCount := 0
  cacheHits := 0
  cacheMisses := 0
  inputTokens := 0

/-- What is left to do with the results of the batches in their order. -/
def reconstitute (rows : List EmbeddingSourceRow) (snippets : List Snippet)
    (results : List (ApiBatchResult F)) : Except GraphLoomError (EmbeddingBatchOutput F) := do
  let vectorsByRow ← collectRowVectors config rows.length results
  let output ← vectorsByRow.zipIdx.foldlM (addDocument ops config rows) (initialOutput rows snippets)
  .ok (results.foldl addUsage output)

/-- What is left to do with the results of the calls, in the order in which they came back. -/
def finishEmbedding (rows : List EmbeddingSourceRow) (snippets : List Snippet)
    (results : List (Except GraphLoomError (ApiBatchResult F))) :
    Except GraphLoomError (EmbeddingBatchOutput F) := do
  let results ← results.mapM id
  reconstitute ops config rows snippets (results.insertionSort fun a b => a.index ≤ b.index)

/-- The state of a call of `embed_text_rows`. -/
structure EmbedState (F : Type) where
  snippets : List Snippet
  stream : Buffer ApiBatch
  results : List (Except GraphLoomError (ApiBatchResult F))
  returned : Option (Except GraphLoomError (EmbeddingBatchOutput F))

/-- What happens before the first call of the model. -/
def prepare (rows : List EmbeddingSourceRow) : Except GraphLoomError (List Snippet) := do
  validateConfig config
  validateSourceIds config rows
  prepareSnippets tools config rows

def startEmbedding (rows : List EmbeddingSourceRow) : EmbedState F :=
  match prepare tools config rows with
  | .error error => ⟨[], .full [], [], some (.error error)⟩
  | .ok [] =>
    ⟨[], .full [], [], some (.ok { initialOutput rows [] with skippedRows := rows.length })⟩
  | .ok snippets => ⟨snippets, .full (buildBatches config snippets), [], none⟩

inductive EmbedStep (rows : List EmbeddingSourceRow) (s : EmbedState F) :
    Option ApiBatch → EmbedState F → Prop
  | start {stream : Buffer ApiBatch} (waits : s.returned = none)
      (poll : Buffer.Poll (max config.concurrency 1) s.stream none stream) :
      EmbedStep rows s none { s with stream }
  | completed {stream : Buffer ApiBatch} {batch : ApiBatch} (waits : s.returned = none)
      (poll : Buffer.Poll (max config.concurrency 1) s.stream (some batch) stream) :
      EmbedStep rows s (some batch)
        { s with stream, results := s.results ++ [executeBatch ops tools config batch] }
  | drained (waits : s.returned = none) (empty : s.stream.Drained) :
      EmbedStep rows s none
        { s with returned := some (finishEmbedding ops config rows s.snippets s.results) }

/-- A call of `embed_text_rows`, over every order in which the batches complete. -/
def embedTextRows (rows : SourceRows) : System (EmbedState F) (Option ApiBatch) where
  init s := s = startEmbedding tools config rows.rows
  step := EmbedStep ops tools config rows.rows

end GraphLoom.Embeddings
