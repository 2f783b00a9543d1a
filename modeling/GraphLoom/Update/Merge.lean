import GraphLoom.Foundation.Grouping
import GraphLoom.Tables
import Mathlib.Data.List.AList
import Mathlib.Data.Prod.Lex
import Mathlib.Data.String.Basic

/-!
# Merging the tables of two indexes

An update merges the tables of the previous index with those of the delta, the index of the new
documents.  Entities are grouped by title and relationships by source and target, each group keeping
the identity of its first row; text units and covariates are put one after the other, with delta
entity ids rewritten to the surviving ones; communities are numbered on.
-/

namespace GraphLoom.Update

open Foundation

variable {ω : Type}

def updateContext : String := "incremental_update"

/-- The error of this context. -/
def invalidUpdate (message : String) : GraphLoomError := .invalidData updateContext message

/-! ### Human-readable ids -/

section HumanReadableIds

variable {ρ : Type} [HumanReadable ρ]

def maxHumanReadableId (dataframe : List ρ) : ℤ :=
  (dataframe.foldl (fun (maximum : Option ℤ) row =>
    some (maximum.elim (humanReadableId row) (max · (humanReadableId row)))) none).getD (-1)

def offsetId (initialId : ℤ) (index : ℕ) : Except GraphLoomError ℤ := do
  let offset ← usizeToI64 index updateContext "row index"
  okOr (invalidUpdate "human_readable_id overflow") (checkedAdd initialId offset)

/-- The id after the largest one of the previous rows; `message` is the error when there is none. -/
def initialHumanReadableId (message : String) (previous : List ρ) : Except GraphLoomError ℤ :=
  okOr (invalidUpdate message) (checkedAdd (maxHumanReadableId previous) 1)

/-- Number the rows from `initialId` on. -/
def rebaseIds (initialId : ℤ) (rows : List ρ) : Except GraphLoomError (List ρ) :=
  rows.zipIdx.mapM fun (row, index) => do
    let id ← offsetId initialId index
    return withHumanReadableId id row

/-- Null columns take the type of the other side, which is no change of the rows. -/
def concatenateWithRebasedIds (previous delta : List ρ) : Except GraphLoomError (List ρ) := do
  let initialId ← initialHumanReadableId "human_readable_id overflow" previous
  let delta ← rebaseIds initialId delta
  return previous ++ delta

end HumanReadableIds

/-! ### Entities -/

structure EntityTableRow where
  id : String
  humanReadableId : ℤ
  title : String
  entityType : String
  descriptions : List String
  textUnitIds : List String
  degree : ℤ
deriving DecidableEq, Repr

instance : HumanReadable EntityTableRow where
  humanReadableId row := row.humanReadableId
  withHumanReadableId i row := { row with humanReadableId := i }
  humanReadableId_with _ _ := rfl
  with_with _ _ _ := rfl
  with_self _ := rfl

structure MergedEntityRow where
  id : String
  humanReadableId : ℤ
  title : String
  entityType : String
  descriptions : List String
  textUnitIds : List String
  frequency : ℤ
  degree : ℤ
deriving DecidableEq, Repr

/-- A `BTreeMap` from ids to ids. -/
abbrev IdMapping := AList fun _ : String => String

def readEntities (dataframe : List EntityRecord) : List EntityTableRow :=
  dataframe.map fun row =>
    { id := row.id
      humanReadableId := row.humanReadableId
      title := row.title
      entityType := row.entityType
      descriptions := row.description.toStringList
      textUnitIds := row.textUnitIds.toStringList
      degree := row.degree }

/-- The ids of the previous rows with each title. -/
def previousIds (previousRows : List EntityTableRow) : List (String × List String) :=
  (groupBy EntityTableRow.title previousRows).map fun (title, rows) =>
    (title, rows.map EntityTableRow.id)

/-- The id that each delta id is rewritten to. -/
def entityIdMapping (previousRows deltaRows : List EntityTableRow) : IdMapping :=
  deltaRows.foldl (fun mapping row =>
    match (previousIds previousRows).lookup row.title with
    | some ids => ids.foldl (fun mapping id => mapping.insert row.id id) mapping
    | none => mapping) ∅

/-- Merge the rows with one title. -/
def resolveEntityGroup (title : String) (rows : List EntityTableRow) :
    Except GraphLoomError MergedEntityRow := do
  let first ← okOr (invalidUpdate "empty entity group") rows.head?
  let descriptions := rows.flatMap EntityTableRow.descriptions
  let textUnitIds := rows.flatMap EntityTableRow.textUnitIds
  let frequency ← usizeToI64 textUnitIds.length updateContext "frequency"
  return {
    id := first.id
    humanReadableId := first.humanReadableId
    title
    entityType := first.entityType
    descriptions
    textUnitIds
    frequency
    degree := first.degree }

def mergeEntities (previous delta : List EntityRecord) :
    Except GraphLoomError (List MergedEntityRow × IdMapping) := do
  let previousRows := readEntities previous
  let deltaRows := readEntities delta
  let idMapping := entityIdMapping previousRows deltaRows
  let initialId ← initialHumanReadableId "entity human_readable_id overflow" previous
  let deltaRows ← rebaseIds initialId deltaRows
  let grouped := groupBy EntityTableRow.title (previousRows ++ deltaRows)
  let resolved ← grouped.mapM fun (title, rows) => resolveEntityGroup title rows
  return (resolved, idMapping)

/-! ### Relationships -/

structure RelationshipTableRow (ω : Type) where
  id : String
  humanReadableId : ℤ
  source : String
  target : String
  descriptions : List String
  textUnitIds : List String
  weight : ω
deriving DecidableEq, Repr

instance : HumanReadable (RelationshipTableRow ω) where
  humanReadableId row := row.humanReadableId
  withHumanReadableId i row := { row with humanReadableId := i }
  humanReadableId_with _ _ := rfl
  with_with _ _ _ := rfl
  with_self _ := rfl

structure MergedRelationshipRow (ω : Type) where
  id : String
  humanReadableId : ℤ
  source : String
  target : String
  descriptions : List String
  textUnitIds : List String
  weight : ω
  combinedDegree : ℤ
deriving DecidableEq, Repr

def readRelationships (dataframe : List (RelationshipRecord ω)) : List (RelationshipTableRow ω) :=
  dataframe.map fun row =>
    { id := row.id
      humanReadableId := row.humanReadableId
      source := row.source
      target := row.target
      descriptions := row.description.toStringList
      textUnitIds := row.textUnitIds.toStringList
      weight := row.weight }

/-- The pair that relationships are grouped by, in the order of pairs. -/
def RelationshipTableRow.key (row : RelationshipTableRow ω) : String ×ₗ String :=
  toLex (row.source, row.target)

/-- Merge the rows with one source and target. -/
def mergeRelationshipGroup [Zero ω] [Add ω] [Div ω] [NatCast ω] (source target : String)
    (rows : List (RelationshipTableRow ω)) :
    Except GraphLoomError (MergedRelationshipRow ω) := do
  let first ← okOr (invalidUpdate "empty relationship group") rows.head?
  let descriptions := rows.flatMap RelationshipTableRow.descriptions
  let textUnitIds := rows.flatMap RelationshipTableRow.textUnitIds
  let weight := rows.foldl (fun weight row => weight + row.weight) 0
  if rows.length ≤ u32Max then
    return {
      id := first.id
      humanReadableId := first.humanReadableId
      source
      target
      descriptions
      textUnitIds
      weight := weight / (rows.length : ω)
      combinedDegree := 0 }
  else throw (invalidUpdate "relationship group exceeds the supported row count")

/-- How many rows have each key, in saturating 64-bit arithmetic. -/
def degrees {ρ : Type} (key : ρ → String) (rows : List ρ) : String → ℤ :=
  rows.foldl (fun degrees row =>
    Function.update degrees (key row) (saturatingAdd (degrees (key row)) 1)) fun _ => 0

/-- The combined degrees of the rows, from the sources and targets of all of them. -/
def withCombinedDegrees (merged : List (MergedRelationshipRow ω)) :
    List (MergedRelationshipRow ω) :=
  merged.map fun row =>
    { row with
      combinedDegree := saturatingAdd (degrees MergedRelationshipRow.source merged row.source)
        (degrees MergedRelationshipRow.target merged row.target) }

def mergeRelationships [Zero ω] [Add ω] [Div ω] [NatCast ω]
    (previous delta : List (RelationshipRecord ω)) (entityTitles : List String) :
    Except GraphLoomError (List (MergedRelationshipRow ω)) := do
  let previousRows := readRelationships previous
  let deltaRows := readRelationships delta
  let initialId ← initialHumanReadableId "relationship human_readable_id overflow" previous
  let deltaRows ← rebaseIds initialId deltaRows
  let grouped := groupBy RelationshipTableRow.key (previousRows ++ deltaRows)
  let merged ← grouped.mapM fun (key, rows) =>
    mergeRelationshipGroup (ofLex key).1 (ofLex key).2 rows
  return (withCombinedDegrees merged).filter fun row =>
    row.source ∈ entityTitles ∧ row.target ∈ entityTitles

/-! ### Summaries -/

/-- What the summarizer reads of a merged entity. -/
structure EntityRow where
  title : String
  entityType : String
  description : List String
  textUnitIds : List String
  frequency : ℤ
deriving DecidableEq, Repr

structure SummarizedEntityRow where
  title : String
  entityType : String
  description : String
  textUnitIds : List String
  frequency : ℤ
deriving DecidableEq, Repr

/-- What the summarizer reads of a merged relationship. -/
structure RelationshipRow (ω : Type) where
  source : String
  target : String
  description : List String
  textUnitIds : List String
  weight : ω
deriving DecidableEq, Repr

structure SummarizedRelationshipRow (ω : Type) where
  source : String
  target : String
  description : String
  textUnitIds : List String
  weight : ω
deriving DecidableEq, Repr

def entitySummaryInputs (rows : List MergedEntityRow) : List EntityRow :=
  rows.map fun row =>
    { title := row.title
      entityType := row.entityType
      description := row.descriptions
      textUnitIds := row.textUnitIds
      frequency := row.frequency }

def relationshipSummaryInputs (rows : List (MergedRelationshipRow ω)) :
    List (RelationshipRow ω) :=
  rows.map fun row =>
    { source := row.source
      target := row.target
      description := row.descriptions
      textUnitIds := row.textUnitIds
      weight := row.weight }

/-- The final table; a title without a summary gets an empty description. -/
def summarizedEntitiesDataframe (merged : List MergedEntityRow)
    (summaries : List SummarizedEntityRow) : List EntityRecord :=
  let descriptions : AList fun _ : String => String :=
    summaries.foldl (fun descriptions row => descriptions.insert row.title row.description) ∅
  merged.map fun row =>
    { id := row.id
      humanReadableId := row.humanReadableId
      title := row.title
      entityType := row.entityType
      description := .string ((descriptions.lookup row.title).getD "")
      textUnitIds := .list row.textUnitIds
      frequency := row.frequency
      degree := row.degree }

def summarizedRelationshipsDataframe (merged : List (MergedRelationshipRow ω))
    (summaries : List (SummarizedRelationshipRow ω)) : List (RelationshipRecord ω) :=
  let descriptions : AList fun _ : String × String => String :=
    summaries.foldl (fun descriptions row =>
      descriptions.insert (row.source, row.target) row.description) ∅
  merged.map fun row =>
    { id := row.id
      humanReadableId := row.humanReadableId
      source := row.source
      target := row.target
      description := .string ((descriptions.lookup (row.source, row.target)).getD "")
      weight := row.weight
      combinedDegree := row.combinedDegree
      textUnitIds := .list row.textUnitIds }

/-! ### Text units -/

/-- The id that replaces an entity id. -/
def remapEntityId (entityMapping : IdMapping) (entityId : String) : String :=
  (entityMapping.lookup entityId).getD entityId

/-- A null column of entity ids stays null. -/
def remapEntityIds (entityMapping : IdMapping) (row : TextUnitRecord) : TextUnitRecord :=
  { row with
    entityIds :=
      match row.entityIds with
      | .null => .null
      | cell => .list (cell.toStringList.map (remapEntityId entityMapping)) }

def mergeTextUnits (previous delta : List TextUnitRecord) (entityMapping : IdMapping) :
    Except GraphLoomError (List TextUnitRecord) := do
  let initialId ← initialHumanReadableId "text unit human_readable_id overflow" previous
  let delta ← rebaseIds initialId delta
  return previous ++ delta.map (remapEntityIds entityMapping)

/-! ### Communities -/

/-- A `BTreeMap` from community numbers to community numbers. -/
abbrev CommunityMapping := AList fun _ : ℤ => ℤ

/-- `remap_integer_column` on one value. -/
def remapInteger (mapping : CommunityMapping) (value : Option ℤ) : Option ℤ :=
  value.map fun value => (mapping.lookup value).getD value

/-- The largest previous community; null counts as zero, as no community does. -/
def maxCommunity (previous : List CommunityRecord) : ℤ :=
  ((previous.map fun row => row.community.getD 0).max?).getD 0

/-- Each delta community after the previous ones; `-1` is no community and stays. -/
def communityMapping (oldMax : ℤ) (delta : List CommunityRecord) :
    Except GraphLoomError CommunityMapping :=
  (delta.filterMap CommunityRecord.community).foldlM (fun mapping value => do
    let mapped ← okOr (invalidUpdate "community ID overflow")
      ((checkedAdd value oldMax).bind fun value => checkedAdd value 1)
    return mapping.insert value mapped) ((∅ : CommunityMapping).insert (-1) (-1))

def mergeCommunities (previous delta : List CommunityRecord) :
    Except GraphLoomError (List CommunityRecord × CommunityMapping) := do
  let mapping ← communityMapping (maxCommunity previous) delta
  let delta := delta.map fun row =>
    { row with
      community := remapInteger mapping row.community
      parent := remapInteger mapping row.parent }
  let merged := (previous ++ delta).map fun row =>
    { row with
      title := "Community " ++ toString (row.community.getD 0)
      humanReadableId := row.community.getD 0 }
  return (merged, mapping)

def mergeCommunityReports (previous delta : List (CommunityReportRecord ω))
    (mapping : CommunityMapping) : List (CommunityReportRecord ω) :=
  let delta := delta.map fun row =>
    { row with
      community := remapInteger mapping row.community
      parent := remapInteger mapping row.parent }
  (previous ++ delta).map fun row => { row with humanReadableId := row.community.getD 0 }

end GraphLoom.Update
