import GraphLoom.Project.Paths
import GraphLoom.Prompts.Prompt
import GraphLoom.Query.Config

/-!
# Runtimes of queries

The resources of a search are assembled from a project, the options of a query and the files of an
index: the tables in the directory of the data, models, a vector store and prompts.  The models, the
vector store, the prompts and the readers of tables are those of a backend.
-/

namespace GraphLoom.Query

open Foundation Std

/-! ### Files and backends -/

/-- What reading the file of a table gives. -/
inductive TableRead (α : Type) where
  | missing
  | unreadable (source : String)
  | malformed (source : String)
  | frame (frame : α)

structure VectorIndexSchema where
  indexName : String
  idField : String
  vectorField : String
  vectorSize : ℕ
deriving DecidableEq, Repr

/-- The types of what a runtime holds and the operations that make it. -/
structure Backend where
  ModelConfig : Type
  Completion : Type
  Embedding : Type
  VectorStore : Type
  Vector : Type
  PromptTemplate : Type
  Frame : Type
  Callback : Type
  Explainability : Type
  providerType : ModelConfig → String
  createCompletion : String → ModelConfig → ℕ → Except String Completion
  createEmbedding : String → ModelConfig → ℕ → Except String Embedding
  createTokenizer : ModelConfig → Except String Tokenizer
  createVectorStore : Except String VectorStore
  count : VectorStore → VectorIndexSchema → Except VectorError ℕ
  getById : VectorStore → VectorIndexSchema → String → Except VectorError (Option Vector)
  dimension : Vector → ℕ
  /-- Neither empty nor without a finite norm other than zero. -/
  usable : Vector → Bool
  vectorErrorText : VectorError → String
  loadConfigured : Prompts.PromptKind → Option String → Except String PromptTemplate
  readEntities : Frame → Frame → ℤ → SearchMethod → Except QueryError (List Entity)
  readReports : Frame → Frame → ℤ → Bool → SearchMethod → Except QueryError (List CommunityReport)
  readCommunities : Frame → Frame → SearchMethod → Except QueryError (List Global.Community)
  readTextUnits : Frame → SearchMethod → Except QueryError (List TextUnit)
  readRelationships : Frame → SearchMethod → Except QueryError (List Relationship)
  readCovariates : Frame → SearchMethod → Except QueryError (List Covariate)
  sumAboveOne : F64 → F64 → Bool
  operations : Local.Operations

/-- The files of an index, which do not change: where they are, and the tables by their directories
and the names of their files. -/
structure IndexFiles (B : Backend) where
  tree : LinkTree
  links : ℕ
  currentDir : Path
  describe : IoErrorKind → String
  table : Path → String → TableRead B.Frame

/-! ### Projects and options -/

structure VectorStoreConfig where
  vectorSize : ℕ
  indexSchema : ExtTreeMap String VectorIndexSchema

def orElse (text default : String) : String := if text = "" then default else text

def VectorStoreConfig.schemaFor (config : VectorStoreConfig) (embeddingName : String) :
    VectorIndexSchema :=
  let schema := (config.indexSchema[embeddingName]?).getD
    ⟨embeddingName, "id", "vector", config.vectorSize⟩
  { indexName := orElse schema.indexName embeddingName
    idField := orElse schema.idField "id"
    vectorField := orElse schema.vectorField "vector"
    vectorSize := if schema.vectorSize = 0 then config.vectorSize else schema.vectorSize }

structure GraphRagConfig (B : Backend) where
  completionModels : ExtTreeMap String B.ModelConfig
  embeddingModels : ExtTreeMap String B.ModelConfig
  concurrentRequests : ℕ
  vectorStore : VectorStoreConfig
  basicSearch : BasicSearchConfig
  localSearch : LocalSearchConfig
  globalSearch : GlobalSearchConfig
  driftSearch : DriftSearchConfig

structure LoadedProject (B : Backend) where
  root : String
  outputDir : String
  vectorDbUri : String
  config : GraphRagConfig B

structure QueryOptions (B : Backend) where
  projectRoot : String
  query : String
  method : SearchMethod
  dataDir : Option String
  communityLevel : ℤ
  dynamicCommunitySelection : Bool
  responseType : String
  callbacks : List B.Callback
  conversationHistory : Option ConversationHistory
  explainability : Option B.Explainability

/-! ### Reading files -/

def StorageError.display : StorageError → String
  | .filesystem path source => "filesystem operation failed for " ++ path ++ ": " ++ source
  | .polars source => "polars dataframe operation failed: " ++ source
  | .invalidPath path reason => "invalid logical path " ++ path.quote ++ ": " ++ reason

namespace IndexFiles

variable {B : Backend} (files : IndexFiles B)

def canonicalize (path : String) : Except IoErrorKind Path :=
  files.tree.walk files.links files.currentDir (kernelComponents path)

def isDir (path : String) : Bool :=
  match files.canonicalize path with
  | .ok location => files.tree.entry location = some .directory
  | .error _ => false

/-- `FileStorage::existing`, with the root of the storage. -/
def existing (root : String) : Except StorageError String :=
  match files.canonicalize root with
  | .error kind => .error (.filesystem root (files.describe kind))
  | .ok location =>
    if files.tree.entry location = some .directory then .ok root
    else .error (.invalidPath root "storage root must be a directory")

/-- What lies at a root is read from where the root is. -/
def read (root object : String) : TableRead B.Frame :=
  match files.canonicalize root with
  | .ok location => files.table location object
  | .error kind => .unreadable (files.describe kind)

def tableIoError (method : SearchMethod) (table operation : String) (source : StorageError) :
    QueryError :=
  .invalidQueryTable method operation
    { table := table
      column := "<table>"
      expected := "readable Parquet table"
      actual := "storage error"
      row := ""
      message := source.display
      source := some source }

/-- The table, or none when there is no file for it. -/
def readTable (root table : String) (method : SearchMethod) (operation : String) :
    Except QueryError (Option B.Frame) :=
  let object := table ++ ".parquet"
  match files.read root object with
  | .frame frame => .ok (some frame)
  | .missing => .ok none
  | .unreadable source =>
    .error (tableIoError method table operation
      (.filesystem (Project.pushText root object) source))
  | .malformed source => .error (tableIoError method table operation (.polars source))

def required (root table : String) (method : SearchMethod) : Except QueryError B.Frame := do
  match ← files.readTable root table method "read query table" with
  | some frame => return frame
  | none => .error (.missingQueryTable method "load query data" table)

def optional (root table : String) (method : SearchMethod) :
    Except QueryError (Option B.Frame) :=
  files.readTable root table method "read optional query table"

end IndexFiles

/-! ### Data -/

structure BasicQueryData where
  textUnits : List TextUnit

structure GlobalQueryData where
  entities : List Entity
  communities : List Global.Community
  reports : List CommunityReport

structure LocalQueryData extends GlobalQueryData where
  textUnits : List TextUnit
  relationships : List Relationship
  covariates : List Covariate

structure DriftQueryData extends GlobalQueryData where
  textUnits : List TextUnit
  relationships : List Relationship

section Loader

variable {B : Backend} (files : IndexFiles B) (root : String)

def loadBasic : Except QueryError BasicQueryData := do
  let textUnits ← files.required root "text_units" .basic
  return ⟨← B.readTextUnits textUnits .basic⟩

def loadGlobal (communityLevel : ℤ) (dynamic : Bool) : Except QueryError GlobalQueryData := do
  let entities ← files.required root "entities" .global
  let communities ← files.required root "communities" .global
  let reports ← files.required root "community_reports" .global
  return {
    entities := ← B.readEntities entities communities communityLevel .global
    reports := ← B.readReports reports communities communityLevel dynamic .global
    communities := ← B.readCommunities communities reports .global }

def loadLocal (communityLevel : ℤ) : Except QueryError LocalQueryData := do
  let entities ← files.required root "entities" .local
  let communities ← files.required root "communities" .local
  let reports ← files.required root "community_reports" .local
  let textUnits ← files.required root "text_units" .local
  let relationships ← files.required root "relationships" .local
  let covariates ← files.optional root "covariates" .local
  return {
    entities := ← B.readEntities entities communities communityLevel .local
    reports := ← B.readReports reports communities communityLevel false .local
    communities := ← B.readCommunities communities reports .local
    textUnits := ← B.readTextUnits textUnits .local
    relationships := ← B.readRelationships relationships .local
    covariates := ← match covariates with
      | none => Except.ok []
      | some covariates => B.readCovariates covariates .local }

def loadDrift (communityLevel : ℤ) : Except QueryError DriftQueryData := do
  let entities ← files.required root "entities" .drift
  let communities ← files.required root "communities" .drift
  let reports ← files.required root "community_reports" .drift
  let textUnits ← files.required root "text_units" .drift
  let relationships ← files.required root "relationships" .drift
  return {
    entities := ← B.readEntities entities communities communityLevel .drift
    reports := ← B.readReports reports communities communityLevel false .drift
    communities := ← B.readCommunities communities reports .drift
    textUnits := ← B.readTextUnits textUnits .drift
    relationships := ← B.readRelationships relationships .drift }

end Loader

def resolveDataRoot (root : String) (overridePath : Option String) (configured : String) : String :=
  match overridePath with
  | none => configured
  | some path => if isAbsolute path then path else Project.pushText root path

section Load

variable {B : Backend} (files : IndexFiles B) (project : LoadedProject B)
  (options : QueryOptions B)

/-- The root of the tables. -/
def openTableProvider (method : SearchMethod) (representativeTable : String) :
    Except QueryError String :=
  let tableRoot := resolveDataRoot project.root options.dataDir project.outputDir
  if ¬ files.isDir tableRoot then
    .error (.missingQueryTable method "open Query table directory" representativeTable)
  else
    match files.existing tableRoot with
    | .ok root => .ok root
    | .error source =>
      .error (.queryRuntime method "create Query table provider" source.display)

def loadBasicTextUnits : Except QueryError (List TextUnit) := do
  let tableProvider ← openTableProvider files project options .basic "text_units"
  let data ← loadBasic files tableProvider
  return data.textUnits

def loadLocalData : Except QueryError LocalQueryData := do
  let tableProvider ← openTableProvider files project options .local "entities"
  loadLocal files tableProvider options.communityLevel

def loadGlobalData : Except QueryError GlobalQueryData := do
  let tableProvider ← openTableProvider files project options .global "entities"
  loadGlobal files tableProvider options.communityLevel options.dynamicCommunitySelection

def loadDriftData : Except QueryError DriftQueryData := do
  let tableProvider ← openTableProvider files project options .drift "entities"
  loadDrift files tableProvider options.communityLevel

/-! ### Requirements -/

def validateCommunityLevel (method : SearchMethod) : Except QueryError Unit :=
  if options.communityLevel < 0 then
    .error (.invalidQueryConfig method "validate query options"
      "community_level must be non-negative")
  else .ok ()

/-- A message as an error of the configuration. -/
def configError {α : Type} (method : SearchMethod) (operation : String) :
    Except String α → Except QueryError α
  | .ok a => .ok a
  | .error message => .error (.invalidQueryConfig method operation message)

def validateBasicRequirements : Except QueryError Unit := do
  validateCommunityLevel options .basic
  configError .basic "validate Basic Search config" project.config.basicSearch.validate

def validateLocalRequirements : Except QueryError Unit := do
  validateCommunityLevel options .local
  configError .local "validate Local Search config"
    (project.config.localSearch.validate B.sumAboveOne)
  match options.conversationHistory with
  | some history =>
    configError .local "validate Local Search conversation history" history.validate
  | none => .ok ()

def validateGlobalRequirements : Except QueryError Unit := do
  validateCommunityLevel options .global
  configError .global "validate Global Search config" project.config.globalSearch.validate
  if project.config.concurrentRequests = 0 then
    .error (.invalidQueryConfig .global "validate Global Search config"
      "concurrent_requests must be greater than zero")
  else .ok ()

def validateDriftRequirements : Except QueryError Unit := do
  if options.query = "" then
    .error (.invalidQueryConfig .drift "validate DRIFT Search query"
      "DRIFT Search query cannot be empty")
  else .ok ()
  validateCommunityLevel options .drift
  configError .drift "validate DRIFT Search config"
    (project.config.driftSearch.validate B.sumAboveOne)

end Load

/-! ### Models -/

structure QueryCompletionResources (B : Backend) where
  completion : B.Completion
  completionId : String
  completionConfig : B.ModelConfig
  tokenizer : Tokenizer

structure QueryModelResources (B : Backend) extends QueryCompletionResources B where
  embedding : B.Embedding
  embeddingId : String
  embeddingProvider : String

/-- A message as an error of the runtime. -/
def runtimeError {α : Type} (method : SearchMethod) (operation : String) :
    Except String α → Except QueryError α
  | .ok a => .ok a
  | .error message => .error (.queryRuntime method operation message)

def requiredModel {α : Type} (models : ExtTreeMap String α) (id : String) (method : SearchMethod)
    (kind : String) : Except QueryError α :=
  match models[id]? with
  | some model => .ok model
  | none =>
    .error (.invalidQueryConfig method "resolve Query model"
      ("required " ++ kind ++ " model " ++ id.quote ++ " is not configured"))

/-- The name of a method in the texts of errors. -/
def modelsOf : SearchMethod → String
  | .basic => "Basic"
  | .local => "Local"
  | _ => "Query"

section Models

variable {B : Backend} (project : LoadedProject B)

def createQueryModels (method : SearchMethod) (completionId embeddingId : String) :
    Except QueryError (QueryModelResources B) := do
  let completionConfig ← requiredModel project.config.completionModels completionId method
    "completion"
  let embeddingConfig ← requiredModel project.config.embeddingModels embeddingId method "embedding"
  let completion ← runtimeError method ("create " ++ modelsOf method ++ " completion model")
    (B.createCompletion completionId completionConfig project.config.concurrentRequests)
  let embedding ← runtimeError method ("create " ++ modelsOf method ++ " embedding model")
    (B.createEmbedding embeddingId embeddingConfig project.config.concurrentRequests)
  let tokenizer ← runtimeError method ("create " ++ modelsOf method ++ " tokenizer")
    (B.createTokenizer completionConfig)
  return {
    completion := completion
    completionId := completionId
    completionConfig := completionConfig
    tokenizer := tokenizer
    embedding := embedding
    embeddingId := embeddingId
    embeddingProvider := B.providerType embeddingConfig }

def createBasicModels : Except QueryError (QueryModelResources B) :=
  createQueryModels project .basic project.config.basicSearch.completionModelId
    project.config.basicSearch.embeddingModelId

def createLocalModels : Except QueryError (QueryModelResources B) :=
  createQueryModels project .local project.config.localSearch.completionModelId
    project.config.localSearch.embeddingModelId

def createGlobalModels : Except QueryError (QueryCompletionResources B) := do
  let completionId := project.config.globalSearch.completionModelId
  let completionConfig ← requiredModel project.config.completionModels completionId .global
    "completion"
  let completion ← runtimeError .global "create Global completion model"
    (B.createCompletion completionId completionConfig project.config.concurrentRequests)
  let tokenizer ← runtimeError .global "create Global tokenizer" (B.createTokenizer completionConfig)
  return ⟨completion, completionId, completionConfig, tokenizer⟩

end Models

/-! ### Vectors -/

structure QueryVectorResources (B : Backend) where
  store : B.VectorStore
  schema : VectorIndexSchema

structure DriftVectorResources (B : Backend) where
  store : B.VectorStore
  entitySchema : VectorIndexSchema
  communitySchema : VectorIndexSchema

def textUnitTextEmbedding : String := "text_unit_text"

def entityDescriptionEmbedding : String := "entity_description"

def communityFullContentEmbedding : String := "community_full_content"

/-- An error of a vector index: it is missing or it is not valid. -/
def vectorIndexError (method : SearchMethod) (operation index : String) :
    VectorError → QueryError
  | .missingIndex indexName => .missingVectorIndex method operation index (.missingIndex indexName)
  | source => .invalidVectorIndex method operation index source

/-- The name of a method with vectors in the texts of errors. -/
def vectorsOf : SearchMethod → String
  | .basic => "Basic Search"
  | .local => "Local Search"
  | _ => "Query"

section Vectors

variable {B : Backend} (files : IndexFiles B) (project : LoadedProject B)

def validateIndex (method : SearchMethod) (operation : String) (store : B.VectorStore)
    (schema : VectorIndexSchema) : Except QueryError Unit :=
  match B.count store schema with
  | .ok _ => .ok ()
  | .error source => .error (vectorIndexError method operation schema.indexName source)

def openQueryVectors (method : SearchMethod) (embeddingName : String) :
    Except QueryError (QueryVectorResources B) := do
  let schema := project.config.vectorStore.schemaFor embeddingName
  if ¬ files.isDir project.vectorDbUri then
    .error (.missingVectorIndex method ("open " ++ vectorsOf method ++ " vector database")
      schema.indexName (.missingIndex schema.indexName))
  else
    let store ← runtimeError method "connect Query vector store" B.createVectorStore
    validateIndex method ("validate " ++ vectorsOf method ++ " vector index") store schema
    return ⟨store, schema⟩

def openBasicVectors : Except QueryError (QueryVectorResources B) :=
  openQueryVectors files project .basic textUnitTextEmbedding

def openLocalVectors : Except QueryError (QueryVectorResources B) :=
  openQueryVectors files project .local entityDescriptionEmbedding

def openDriftVectors : Except QueryError (DriftVectorResources B) := do
  let entitySchema := project.config.vectorStore.schemaFor entityDescriptionEmbedding
  let communitySchema := project.config.vectorStore.schemaFor communityFullContentEmbedding
  if ¬ files.isDir project.vectorDbUri then
    .error (.missingVectorIndex .drift "open DRIFT vector database" communitySchema.indexName
      (.missingIndex communitySchema.indexName))
  else
    let store ← runtimeError .drift "connect DRIFT vector store" B.createVectorStore
    validateIndex .drift "validate DRIFT vector index" store entitySchema
    validateIndex .drift "validate DRIFT vector index" store communitySchema
    return ⟨store, entitySchema, communitySchema⟩

end Vectors

/-! ### Reports with vectors -/

structure HydratedReport (B : Backend) where
  report : CommunityReport
  fullContentEmbedding : Option B.Vector

def hydrateOperation : String := "hydrate DRIFT community report embeddings"

def validateDocumentVector {B : Backend} (vector : B.Vector) (reportId index : String) :
    Except QueryError Unit :=
  if B.usable vector then .ok ()
  else
    .error (.invalidVectorIndex .drift "rank DRIFT community reports" index
      (.invalidDocument index ("report " ++ reportId ++ " vector has invalid dimension " ++
        toString (B.dimension vector) ++ " or zero/non-finite norm")))

/-- One report, with the reports before and the identifiers that have no vector. -/
def hydrateReport {B : Backend} (store : B.VectorStore) (schema : VectorIndexSchema)
    (state : List (HydratedReport B) × List String) (report : CommunityReport) :
    Except QueryError (List (HydratedReport B) × List String) :=
  match B.getById store schema report.id with
  | .ok (some vector) => do
    validateDocumentVector vector report.id schema.indexName
    return (state.1 ++ [⟨report, some vector⟩], state.2)
  | .ok none => .ok (state.1 ++ [⟨report, none⟩], state.2 ++ [report.id])
  | .error source => .error (vectorIndexError .drift hydrateOperation schema.indexName source)

def hydrateReports {B : Backend} (store : B.VectorStore) (schema : VectorIndexSchema)
    (reports : List CommunityReport) : Except QueryError (List (HydratedReport B)) := do
  let (hydrated, missing) ← reports.foldlM (hydrateReport store schema) ([], [])
  if missing = [] then return hydrated
  else
    .error (.invalidVectorIndex .drift hydrateOperation schema.indexName
      (.invalidDocument schema.indexName ("missing " ++ toString missing.length ++ " of " ++
        toString reports.length ++ " report vectors; report ids: " ++
        String.intercalate ", " (missing.take 10))))

/-! ### Runtimes -/

structure BasicContextBuilder (B : Backend) where
  config : BasicSearchConfig
  textUnits : List TextUnit
  embeddingModel : B.Embedding
  embeddingModelId : String
  vectorStore : B.VectorStore
  vectorSchema : VectorIndexSchema
  tokenizer : Tokenizer

/-- The builder of local contexts with what maps a query to entities. -/
structure LocalContextResources (B : Backend) where
  builder : Local.LocalContextBuilder
  embeddingModel : B.Embedding
  embeddingModelId : String
  embeddingProvider : String
  vectorStore : B.VectorStore
  vectorSchema : VectorIndexSchema

structure GlobalContextBuilder where
  config : GlobalSearchConfig
  entities : List Entity
  communities : List Global.Community
  reports : List CommunityReport
  tokenizer : Tokenizer

structure DriftContextBuilder (B : Backend) where
  config : DriftSearchConfig
  reports : List (HydratedReport B)
  local' : LocalContextResources B
  completionModel : B.Completion
  embeddingModel : B.Embedding
  completionModelId : String
  embeddingModelId : String
  completionConfig : B.ModelConfig
  vectorStore : B.VectorStore
  communitySchema : VectorIndexSchema
  tokenizer : Tokenizer

structure BasicQueryRuntime (B : Backend) where
  basicContext : BasicContextBuilder B
  completionModel : B.Completion
  completionModelId : String
  completionConfig : B.ModelConfig
  prompt : B.PromptTemplate
  callbacks : List B.Callback

structure LocalQueryRuntime (B : Backend) where
  localContext : LocalContextResources B
  completionModel : B.Completion
  completionModelId : String
  completionConfig : B.ModelConfig
  prompt : B.PromptTemplate
  callbacks : List B.Callback

structure GlobalQueryRuntime (B : Backend) where
  globalContext : GlobalContextBuilder
  completionModel : B.Completion
  completionModelId : String
  completionConfig : B.ModelConfig
  mapPrompt : B.PromptTemplate
  reducePrompt : B.PromptTemplate
  knowledgePrompt : B.PromptTemplate
  callbacks : List B.Callback
  concurrentRequests : ℕ
  dynamicCommunitySelection : Bool

structure DriftQueryRuntime (B : Backend) where
  context : DriftContextBuilder B
  localPrompt : B.PromptTemplate
  reducePrompt : B.PromptTemplate
  callbacks : List B.Callback

section Assembly

variable {B : Backend} (files : IndexFiles B) (project : LoadedProject B)

def loadPrompt (method : SearchMethod) (kind : Prompts.PromptKind) (configured : Option String)
    (operation prompt : String) : Except QueryError B.PromptTemplate :=
  match B.loadConfigured kind configured with
  | .ok template => .ok template
  | .error source => .error (.queryPrompt method operation prompt source)

def driftLocalConfig (config : DriftSearchConfig) : LocalSearchConfig where
  prompt := config.prompt
  completionModelId := config.completionModelId
  embeddingModelId := config.embeddingModelId
  textUnitProp := config.localSearchTextUnitProp
  communityProp := config.localSearchCommunityProp
  conversationHistoryMaxTurns := 5
  topKEntities := config.localSearchTopKMappedEntities
  topKRelationships := config.localSearchTopKRelationships
  maxContextTokens := config.localSearchMaxDataTokens

namespace QueryRuntimeFactory

variable (options : QueryOptions B)

def buildBasic : Except QueryError (BasicQueryRuntime B) := do
  validateBasicRequirements project options
  let textUnits ← loadBasicTextUnits files project options
  let models ← createBasicModels project
  let vectors ← openBasicVectors files project
  let prompt ← loadPrompt .basic .basicSearch project.config.basicSearch.prompt
    "load Basic Search prompt" "basic_search_system_prompt.txt"
  return {
    basicContext :=
      { config := project.config.basicSearch
        textUnits := textUnits
        embeddingModel := models.embedding
        embeddingModelId := models.embeddingId
        vectorStore := vectors.store
        vectorSchema := vectors.schema
        tokenizer := models.tokenizer }
    completionModel := models.completion
    completionModelId := models.completionId
    completionConfig := models.completionConfig
    prompt := prompt
    callbacks := options.callbacks }

def buildLocal : Except QueryError (LocalQueryRuntime B) := do
  validateLocalRequirements project options
  let data ← loadLocalData files project options
  let index := QueryDataIndex.newWithSingleCovariateGroup data.entities data.reports data.textUnits
    data.relationships data.covariates "claims"
  let models ← createLocalModels project
  let vectors ← openLocalVectors files project
  let prompt ← loadPrompt .local .localSearch project.config.localSearch.prompt
    "load Local Search prompt" "local_search_system_prompt.txt"
  return {
    localContext :=
      { builder :=
          { method := .local
            config := project.config.localSearch.toLocalSearchConfig
            entities := data.entities
            reports := data.reports
            textUnits := data.textUnits
            relationships := data.relationships
            covariates := data.covariates
            index := index
            ops := { B.operations with tokenizer := models.tokenizer } }
        embeddingModel := models.embedding
        embeddingModelId := models.embeddingId
        embeddingProvider := models.embeddingProvider
        vectorStore := vectors.store
        vectorSchema := vectors.schema }
    completionModel := models.completion
    completionModelId := models.completionId
    completionConfig := models.completionConfig
    prompt := prompt
    callbacks := options.callbacks }

def buildGlobal : Except QueryError (GlobalQueryRuntime B) := do
  validateGlobalRequirements project options
  let data ← loadGlobalData files project options
  let models ← createGlobalModels project
  let mapPrompt ← loadPrompt .global .globalSearchMap project.config.globalSearch.mapPrompt
    "load Global Search map prompt" "global_search_map_system_prompt.txt"
  let reducePrompt ← loadPrompt .global .globalSearchReduce
    project.config.globalSearch.reducePrompt "load Global Search reduce prompt"
    "global_search_reduce_system_prompt.txt"
  let knowledgePrompt ← loadPrompt .global .globalSearchKnowledge
    project.config.globalSearch.knowledgePrompt "load Global Search knowledge prompt"
    "global_search_knowledge_system_prompt.txt"
  return {
    globalContext :=
      { config := project.config.globalSearch
        entities := data.entities
        communities := data.communities
        reports := data.reports
        tokenizer := models.tokenizer }
    completionModel := models.completion
    completionModelId := models.completionId
    completionConfig := models.completionConfig
    mapPrompt := mapPrompt
    reducePrompt := reducePrompt
    knowledgePrompt := knowledgePrompt
    callbacks := options.callbacks
    concurrentRequests := project.config.concurrentRequests
    dynamicCommunitySelection := options.dynamicCommunitySelection }

def buildDrift : Except QueryError (DriftQueryRuntime B) := do
  validateDriftRequirements project options
  let data ← loadDriftData files project options
  let index := QueryDataIndex.new data.entities data.reports data.textUnits data.relationships []
  let config := project.config.driftSearch
  let models ← createQueryModels project .drift config.completionModelId config.embeddingModelId
  let vectors ← openDriftVectors files project
  let localPrompt ← loadPrompt .drift .driftSearch config.prompt "load DRIFT Local prompt"
    "drift_search_system_prompt.txt"
  let reducePrompt ← loadPrompt .drift .driftReduce config.reducePrompt "load DRIFT reduce prompt"
    "drift_reduce_prompt.txt"
  let reports ← hydrateReports vectors.store vectors.communitySchema data.reports
  return {
    context :=
      { config := config
        reports := reports
        local' :=
          { builder :=
              { method := .drift
                config := (driftLocalConfig config).toLocalSearchConfig
                entities := data.entities
                reports := data.reports
                textUnits := data.textUnits
                relationships := data.relationships
                covariates := []
                index := index
                ops := { B.operations with tokenizer := models.tokenizer } }
            embeddingModel := models.embedding
            embeddingModelId := models.embeddingId
            embeddingProvider := models.embeddingProvider
            vectorStore := vectors.store
            vectorSchema := vectors.entitySchema }
        completionModel := models.completion
        embeddingModel := models.embedding
        completionModelId := models.completionId
        embeddingModelId := models.embeddingId
        completionConfig := models.completionConfig
        vectorStore := vectors.store
        communitySchema := vectors.communitySchema
        tokenizer := models.tokenizer }
    localPrompt := localPrompt
    reducePrompt := reducePrompt
    callbacks := options.callbacks }

end QueryRuntimeFactory

end Assembly

end GraphLoom.Query
