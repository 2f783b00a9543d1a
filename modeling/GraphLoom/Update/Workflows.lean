import GraphLoom.Foundation.Transition
import GraphLoom.Update.Merge

/-!
# The update workflows

An update runs on the final tables of a project.  It copies them to the previous tables, indexes the
new documents into the delta tables, and then runs the update workflows one after the other, each of
which reads the previous and the delta tables and writes the final ones.  A project goes through any
number of updates, each on what the one before has left.
-/

namespace GraphLoom.Update

open Foundation

variable {ω : Type}

/-- What one update is given: the delta tables, and what the summarizing model answers. -/
structure UpdateInput (ω : Type) where
  delta : Tables ω
  summarizeEntities : List EntityRow → Except GraphLoomError (List SummarizedEntityRow)
  summarizeRelationships :
    List (RelationshipRow ω) → Except GraphLoomError (List (SummarizedRelationshipRow ω))

structure UpdateRuntimeState (ω : Type) where
  previous : Tables ω
  delta : Tables ω
  final : Tables ω
  entityIdMapping : Option IdMapping := none
  communityIdMapping : Option CommunityMapping := none

/-- A workflow of the update. -/
abbrev UpdateWorkflow (ω : Type) :=
  UpdateRuntimeState ω → Except GraphLoomError (UpdateRuntimeState ω)

def updateFinalDocuments : UpdateWorkflow ω := fun state => do
  let old ← readDataframe "documents" state.previous.documents
  let new ← readDataframe "documents" state.delta.documents
  let merged ← concatenateWithRebasedIds old new
  return { state with final := { state.final with documents := some merged } }

def updateEntitiesRelationships [Zero ω] [Add ω] [Div ω] [NatCast ω] (input : UpdateInput ω) :
    UpdateWorkflow ω := fun state => do
  let oldEntities ← readDataframe "entities" state.previous.entities
  let deltaEntities ← readDataframe "entities" state.delta.entities
  let (mergedEntities, mapping) ← mergeEntities oldEntities deltaEntities
  let entityTitles := mergedEntities.map MergedEntityRow.title
  let oldRelationships ← readDataframe "relationships" state.previous.relationships
  let deltaRelationships ← readDataframe "relationships" state.delta.relationships
  let mergedRelationships ← mergeRelationships oldRelationships deltaRelationships entityTitles
  let entitySummaries ← input.summarizeEntities (entitySummaryInputs mergedEntities)
  let relationshipSummaries ←
    input.summarizeRelationships (relationshipSummaryInputs mergedRelationships)
  return {
    state with
    final := {
      state.final with
      entities := some (summarizedEntitiesDataframe mergedEntities entitySummaries)
      relationships :=
        some (summarizedRelationshipsDataframe mergedRelationships relationshipSummaries) }
    entityIdMapping := some mapping }

def updateTextUnits : UpdateWorkflow ω := fun state => do
  let mapping ← okOr (.missingUpdateIdMapping "entity" "update_text_units") state.entityIdMapping
  let old ← readDataframe "text_units" state.previous.textUnits
  let new ← readDataframe "text_units" state.delta.textUnits
  let merged ← mergeTextUnits old new mapping
  return { state with final := { state.final with textUnits := some merged } }

def updateCovariates : UpdateWorkflow ω := fun state => do
  -- without a table on both sides nothing is written
  if state.previous.covariates.isNone || state.delta.covariates.isNone then return state
  let old ← readDataframe "covariates" state.previous.covariates
  let new ← readDataframe "covariates" state.delta.covariates
  let merged ← concatenateWithRebasedIds old new
  return { state with final := { state.final with covariates := some merged } }

def updateCommunities : UpdateWorkflow ω := fun state => do
  let old ← readDataframe "communities" state.previous.communities
  let new ← readDataframe "communities" state.delta.communities
  let (merged, mapping) ← mergeCommunities old new
  return {
    state with
    final := { state.final with communities := some merged }
    communityIdMapping := some mapping }

def updateCommunityReports : UpdateWorkflow ω := fun state => do
  let mapping ←
    okOr (.missingUpdateIdMapping "community" "update_community_reports") state.communityIdMapping
  let old ← readDataframe "community_reports" state.previous.communityReports
  let new ← readDataframe "community_reports" state.delta.communityReports
  let merged := mergeCommunityReports old new mapping
  return { state with final := { state.final with communityReports := some merged } }

/-- `clear_temporary_state`. -/
def updateCleanState : UpdateWorkflow ω := fun state =>
  return { state with entityIdMapping := none, communityIdMapping := none }

/-- `copy_previous_tables`: every final table is written over the previous one. -/
def copyPreviousTables (final previous : Tables ω) : Tables ω where
  documents := final.documents <|> previous.documents
  entities := final.entities <|> previous.entities
  relationships := final.relationships <|> previous.relationships
  textUnits := final.textUnits <|> previous.textUnits
  covariates := final.covariates <|> previous.covariates
  communities := final.communities <|> previous.communities
  communityReports := final.communityReports <|> previous.communityReports

/-- `prepare_update_runtime`: the previous tables are new and receive a copy of the final ones. -/
def prepareUpdateRuntime (final : Tables ω) (input : UpdateInput ω) : UpdateRuntimeState ω where
  previous := copyPreviousTables final {}
  delta := input.delta
  final := final

section Update

variable [Zero ω] [Add ω] [Div ω] [NatCast ω]

/-- `UPDATE_WORKFLOWS`, without the one that fills the vector store. -/
def updateWorkflows (input : UpdateInput ω) : List (UpdateWorkflow ω) :=
  [updateFinalDocuments, updateEntitiesRelationships input, updateTextUnits, updateCovariates,
    updateCommunities, updateCommunityReports, updateCleanState]

/-- One update of the final tables. -/
def updateIndex (final : Tables ω) (input : UpdateInput ω) :
    Except GraphLoomError (Tables ω) := do
  let state ← (updateWorkflows input).foldlM (fun state workflow => workflow state)
    (prepareUpdateRuntime final input)
  return state.final

/-- A project: a first index and updates, all of whose indexes are as a standard run leaves them. -/
def updateSystem (standard : Tables ω → Prop) : System (Tables ω) (UpdateInput ω) where
  init := standard
  step final input final' := standard input.delta ∧ updateIndex final input = .ok final'

end Update

end GraphLoom.Update
