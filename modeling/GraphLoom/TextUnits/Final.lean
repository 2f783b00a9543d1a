import GraphLoom.Dataframe
import GraphLoom.Foundation.TreeMaps
import GraphLoom.Query.Frame

/-!
# The final text units

The last workflow over the text units fills in which entities, relationships and covariates refer to
each of them.  The references are read from the tables of these and turned round with one map for
each table.
-/

namespace GraphLoom.TextUnits

open Foundation Query
open Std (ExtTreeMap)

def createFinalTextUnitsWorkflow : String := "create_final_text_units"

/-! ### Errors -/

inductive PolarsError where
  | columnNotFound (name : String)
  | schemaMismatch (expected found : DataType)
deriving DecidableEq, Repr

inductive WorkflowError where
  | graphLoom (error : GraphLoomError)
  | polars (error : PolarsError)
deriving DecidableEq, Repr

/-- `?` on an error of the indexing workflows. -/
def liftError {α : Type} : Except GraphLoomError α → Except WorkflowError α
  | .ok value => .ok value
  | .error error => .error (.graphLoom error)

def invalidData (message : String) : WorkflowError :=
  .graphLoom (.invalidData createFinalTextUnitsWorkflow message)

/-- `Option::ok_or`. -/
def okOrElse {α : Type} (error : WorkflowError) : Option α → Except WorkflowError α
  | some value => .ok value
  | none => .error error

/-! ### Cells -/

/-- `DataFrame::column`. -/
def columnOf (frame : DataFrame) (name : String) : Except WorkflowError Query.Column :=
  okOrElse (.polars (.columnNotFound name)) (frame.column name)

/-- `DataFrame::column` and `Column::str`. -/
def strColumn (frame : DataFrame) (name : String) : Except WorkflowError Query.Column := do
  let column ← columnOf frame name
  if column.dtype = .string then return column
  else .error (.polars (.schemaMismatch .string column.dtype))

def asString : AnyValue → Option String
  | .string value => some value
  | _ => none

def stringValue (value : Option String) (column : String) : Except WorkflowError String :=
  okOrElse (invalidData ("missing string column " ++ column)) value

def i64ColumnValue (frame : DataFrame) (row : ℕ) (column : String) : Except WorkflowError ℤ := do
  let series ← columnOf frame column
  match series.get row with
  | .int64 value => return value
  | .int32 value => return value
  | .uint32 value => return value
  | _ => .error (invalidData ("missing integer column " ++ column))

/-- A value of a column of the type.  The nulls of a list are left out. -/
def anyValueToStringList (dtype : DataType) : AnyValue → Except WorkflowError (List String)
  | .list values =>
    match dtype with
    | .list .string => .ok (values.filterMap asString)
    | .list inner => .error (.polars (.schemaMismatch .string inner))
    | other => .error (.polars (.schemaMismatch .string other))
  | .null => .ok []
  | .string value => .ok [value]
  | _ => .error (invalidData "expected string list column")

/-! ### Text units -/

structure TextUnitInput where
  id : String
  text : String
  nTokens : ℤ
  documentId : String
deriving DecidableEq, Repr

def readTextUnit (frame : DataFrame) (ids texts documentIds : Query.Column) (row : ℕ) :
    Except WorkflowError TextUnitInput := do
  let id ← stringValue (asString (ids.get row)) "id"
  let text ← stringValue (asString (texts.get row)) "text"
  let nTokens ← i64ColumnValue frame row "n_tokens"
  let documentId ← stringValue (asString (documentIds.get row)) "document_id"
  return { id := id, text := text, nTokens := nTokens, documentId := documentId }

def readTextUnits (frame : DataFrame) : Except WorkflowError (List TextUnitInput) := do
  let ids ← strColumn frame "id"
  let texts ← strColumn frame "text"
  let documentIds ← strColumn frame "document_id"
  (List.range frame.height).mapM (readTextUnit frame ids texts documentIds)

structure TextUnitRow where
  id : String
  humanReadableId : ℤ
  text : String
  nTokens : ℤ
  documentId : String
  entityIds : List String
  relationshipIds : List String
  covariateIds : List String
deriving DecidableEq, Repr

/-- `json!` of an `i64`. -/
def i64Json (value : ℤ) : Json.Value :=
  if 0 ≤ value then .number (.unsigned (.ofNat value.toNat)) else .number (.signed (.ofInt value))

def stringsJson (values : List String) : Json.Value := .array (values.map .string)

def TextUnitRow.toValue (row : TextUnitRow) : Json.Value :=
  .object (Json.Map.ofFields [
    ("id", some (.string row.id)),
    ("human_readable_id", some (i64Json row.humanReadableId)),
    ("text", some (.string row.text)),
    ("n_tokens", some (i64Json row.nTokens)),
    ("document_id", some (.string row.documentId)),
    ("entity_ids", some (stringsJson row.entityIds)),
    ("relationship_ids", some (stringsJson row.relationshipIds)),
    ("covariate_ids", some (stringsJson row.covariateIds))])

def stringList (values : List String) : AnyValue := .list (values.map .string)

def textUnitsDataframe (rows : List TextUnitRow) : DataFrame :=
  .ofRows [
    ⟨"id", .string, fun row => .string row.id⟩,
    ⟨"human_readable_id", .int64, fun row => .int64 row.humanReadableId⟩,
    ⟨"text", .string, fun row => .string row.text⟩,
    ⟨"n_tokens", .int64, fun row => .int64 row.nTokens⟩,
    ⟨"document_id", .string, fun row => .string row.documentId⟩,
    ⟨"entity_ids", stringListType rows, fun row => stringList row.entityIds⟩,
    ⟨"relationship_ids", stringListType rows, fun row => stringList row.relationshipIds⟩,
    ⟨"covariate_ids", stringListType rows, fun row => stringList row.covariateIds⟩] rows

/-! ### References -/

/-- The ids that refer to each text unit. -/
abbrev ReferenceMap := ExtTreeMap String (List String)

def addReferences (ids textUnitIds : Query.Column) (mapping : ReferenceMap) (row : ℕ) :
    Except WorkflowError ReferenceMap := do
  let rowId ← stringValue (asString (ids.get row)) "id"
  let units ← anyValueToStringList textUnitIds.dtype (textUnitIds.get row)
  return units.foldl (fun mapping textUnitId => pushAt mapping textUnitId rowId) mapping

def buildMultiRefMap (frame : DataFrame) (kind : String) : Except WorkflowError ReferenceMap := do
  let ids ← strColumn frame "id"
  let textUnitIds ← okOrElse (invalidData ("missing " ++ kind ++ " text_unit_ids"))
    (frame.column "text_unit_ids")
  (List.range frame.height).foldlM (addReferences ids textUnitIds) ∅

def addCovariate (ids textUnitIds : Query.Column) (mapping : ReferenceMap) (row : ℕ) :
    Except WorkflowError ReferenceMap := do
  let id ← stringValue (asString (ids.get row)) "id"
  let textUnitId ← stringValue (asString (textUnitIds.get row)) "text_unit_id"
  return pushAt mapping textUnitId id

def buildCovariateMap (frame : DataFrame) : Except WorkflowError ReferenceMap := do
  let ids ← strColumn frame "id"
  let textUnitIds ← strColumn frame "text_unit_id"
  (List.range frame.height).foldlM (addCovariate ids textUnitIds) ∅

def clonedVecOrEmpty (values : Option (List String)) : List String := values.getD []

/-! ### The workflow -/

/-- The output tables that the workflow reads or writes. -/
structure OutputTables where
  textUnits : Option DataFrame
  entities : Option DataFrame
  relationships : Option DataFrame
  covariates : Option DataFrame

structure IndexWorkflowOutput where
  result : List Json.Value
  stop : Bool
  inputRows : ℕ
  outputRows : ℕ

def readDataframe (name : String) (table : Option DataFrame) : Except WorkflowError DataFrame :=
  okOrElse (.graphLoom (.missingTable name)) table

/-- The row of a text unit and its index. -/
def finalTextUnit (entityMap relationshipMap covariateMap : ReferenceMap)
    (textUnit : TextUnitInput × ℕ) : Except WorkflowError TextUnitRow := do
  let humanReadableId ←
    liftError (usizeToI64 textUnit.2 createFinalTextUnitsWorkflow "human_readable_id")
  return {
    id := textUnit.1.id
    humanReadableId := humanReadableId
    text := textUnit.1.text
    nTokens := textUnit.1.nTokens
    documentId := textUnit.1.documentId
    entityIds := clonedVecOrEmpty entityMap[textUnit.1.id]?
    relationshipIds := clonedVecOrEmpty relationshipMap[textUnit.1.id]?
    covariateIds := clonedVecOrEmpty covariateMap[textUnit.1.id]? }

/-- The covariates are read when claims are extracted and there is a table of them. -/
def covariateMapOf (extractClaims : Bool) (table : Option DataFrame) :
    Except WorkflowError ReferenceMap :=
  if extractClaims && table.isSome then do
    let covariates ← readDataframe "covariates" table
    buildCovariateMap covariates
  else return ∅

def finalTextUnits (extractClaims : Bool) (tables : OutputTables) :
    Except WorkflowError (List TextUnitRow) := do
  let textUnits ← readDataframe "text_units" tables.textUnits
  let textUnits ← readTextUnits textUnits
  let entities ← readDataframe "entities" tables.entities
  let entityMap ← buildMultiRefMap entities "entity"
  let relationships ← readDataframe "relationships" tables.relationships
  let relationshipMap ← buildMultiRefMap relationships "relationship"
  let covariateMap ← covariateMapOf extractClaims tables.covariates
  textUnits.zipIdx.mapM (finalTextUnit entityMap relationshipMap covariateMap)

/-- `CreateFinalTextUnitsWorkflow::run`. -/
def createFinalTextUnits (extractClaims : Bool) (tables : OutputTables) :
    Except WorkflowError (OutputTables × IndexWorkflowOutput) := do
  let rows ← finalTextUnits extractClaims tables
  return (
    { tables with textUnits := some (textUnitsDataframe rows) },
    { result := (rows.take 5).map TextUnitRow.toValue
      stop := false
      inputRows := rows.length
      outputRows := rows.length })

end GraphLoom.TextUnits
