import GraphLoom.Communities.Reports
import GraphLoom.Query.Frame
import GraphLoom.Update.Workflows

/-!
# The tables of an index as data frames

A standard run makes the communities and their reports from the final entities and relationships,
and updates merge the tables of further runs into them.  What is written are data frames with the
columns of the tables.
-/

namespace GraphLoom.Query

open Communities Foundation Update

/-! ### Columns -/

def cellValue : StringListCell → AnyValue
  | .null => .null
  | .string value => .string value
  | .list values => .list (values.map .string)

def nullable {α : Type} (value : α → AnyValue) (cell : Option α) : AnyValue := cell.elim .null value

/-! ### Frames -/

def entitiesFrame (rows : List EntityRecord) : DataFrame :=
  .ofRows [
    ⟨"id", .string, fun row => .string row.id⟩,
    ⟨"human_readable_id", .int64, fun row => .int64 row.humanReadableId⟩,
    ⟨"title", .string, fun row => .string row.title⟩,
    ⟨"type", .string, fun row => .string row.entityType⟩,
    ⟨"description", .string, fun row => cellValue row.description⟩,
    ⟨"text_unit_ids", stringListType rows, fun row => cellValue row.textUnitIds⟩,
    ⟨"frequency", .int64, fun row => .int64 row.frequency⟩,
    ⟨"degree", .int64, fun row => .int64 row.degree⟩] rows

def communitiesFrame (rows : List CommunityRecord) : DataFrame :=
  .ofRows [
    ⟨"id", .string, fun row => .string row.id⟩,
    ⟨"human_readable_id", .int64, fun row => .int64 row.humanReadableId⟩,
    ⟨"community", .int64, fun row => nullable .int64 row.community⟩,
    ⟨"level", .int64, fun row => .int64 row.level⟩,
    ⟨"parent", .int64, fun row => nullable .int64 row.parent⟩,
    ⟨"children", .list .int64, fun row => .list (row.children.map .int64)⟩,
    ⟨"title", .string, fun row => .string row.title⟩,
    ⟨"entity_ids", stringListType rows, fun row => cellValue row.entityIds⟩,
    ⟨"relationship_ids", stringListType rows, fun row => cellValue row.relationshipIds⟩,
    ⟨"text_unit_ids", stringListType rows, fun row => cellValue row.textUnitIds⟩,
    ⟨"period", .string, fun row => nullable .string row.period⟩,
    ⟨"size", .int64, fun row => nullable .int64 row.size⟩] rows

def communityReportsFrame (rows : List (CommunityReportRecord F64)) : DataFrame :=
  .ofRows [
    ⟨"id", .string, fun row => .string row.id⟩,
    ⟨"human_readable_id", .int64, fun row => .int64 row.humanReadableId⟩,
    ⟨"community", .int64, fun row => nullable .int64 row.community⟩,
    ⟨"level", .int64, fun row => .int64 row.level⟩,
    ⟨"parent", .int64, fun row => nullable .int64 row.parent⟩,
    ⟨"children", .list .int64, fun row => .list (row.children.map .int64)⟩,
    ⟨"title", .string, fun row => .string row.title⟩,
    ⟨"summary", .string, fun row => .string row.summary⟩,
    ⟨"full_content", .string, fun row => .string row.fullContent⟩,
    ⟨"rank", .float64, fun row => .float64 row.rank⟩,
    ⟨"rating_explanation", .string, fun row => .string row.ratingExplanation⟩,
    ⟨"findings", .list (.other "struct[2]"), fun row => .list (row.findings.map fun _ => .other)⟩,
    ⟨"full_content_json", .string, fun row => .string row.fullContentJson⟩,
    ⟨"period", .string, fun row => nullable .string row.period⟩,
    ⟨"size", .int64, fun row => nullable .int64 row.size⟩] rows

/-! ### Standard runs -/

structure FinalEntityRow where
  id : String
  humanReadableId : ℤ
  title : String
  entityType : String
  description : String
  textUnitIds : List String
  frequency : ℤ
  degree : ℤ
deriving DecidableEq, Repr

def finalEntitiesDataframe (rows : List FinalEntityRow) : List EntityRecord :=
  rows.map fun row =>
    { id := row.id
      humanReadableId := row.humanReadableId
      title := row.title
      entityType := row.entityType
      description := .string row.description
      textUnitIds := .list row.textUnitIds
      frequency := row.frequency
      degree := row.degree }

/-- What a standard run has before its communities, and what it makes them and their reports
with. -/
structure StandardRun where
  before : Tables F64
  entities : List FinalEntityRow
  clusterTools : ClusterTools F64
  identity : RunIdentity
  maxClusterSize : ℕ
  useLcc : Bool
  seed : ℕ
  textUnits : Option (List TextUnitRecord)
  reportTools : ReportTools

/-- The tables of a run, from the final entities on. -/
def StandardRun.tables (run : StandardRun) : Except GraphLoomError (Tables F64) := do
  let finalized := { run.before with entities := some (finalEntitiesDataframe run.entities) }
  let clustered ← createCommunitiesWorkflow run.clusterTools run.identity run.maxClusterSize
    run.useLcc run.seed finalized
  -- `create_final_text_units`
  let joined := { clustered with textUnits := run.textUnits }
  createCommunityReportsWorkflow run.reportTools joined

def StandardIndex (tables : Tables F64) : Prop := ∃ run : StandardRun, run.tables = .ok tables

/-- The indexes of standard runs and of updates after them. -/
def indexSystem [Zero F64] [Add F64] [Div F64] [NatCast F64] :
    System (Tables F64) (UpdateInput F64) :=
  updateSystem StandardIndex

end GraphLoom.Query
