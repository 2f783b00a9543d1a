import GraphLoom.Dataframe

/-!
# The tables of an index

An index is a set of tables, each present or absent.  A record is a row of a table.  The weights and
ranks are floating-point numbers of the program and a parameter here.
-/

namespace GraphLoom

/-! ### Records -/

/-- Records with a `human_readable_id`, which can be replaced and is then the new one. -/
class HumanReadable (ρ : Type) where
  humanReadableId : ρ → ℤ
  withHumanReadableId : ℤ → ρ → ρ
  humanReadableId_with : ∀ i row, humanReadableId (withHumanReadableId i row) = i
  with_with : ∀ i j row, withHumanReadableId i (withHumanReadableId j row) =
    withHumanReadableId i row
  with_self : ∀ row, withHumanReadableId (humanReadableId row) row = row

export HumanReadable (humanReadableId withHumanReadableId)

attribute [simp] HumanReadable.humanReadableId_with HumanReadable.with_with HumanReadable.with_self

structure DocumentRecord where
  id : String
  humanReadableId : ℤ
  title : Option String
  text : String
  textUnitIds : StringListCell
  creationDate : Option String
  rawData : Option String
deriving DecidableEq, Repr

structure EntityRecord where
  id : String
  humanReadableId : ℤ
  title : String
  entityType : String
  description : StringListCell
  textUnitIds : StringListCell
  frequency : ℤ
  degree : ℤ
deriving DecidableEq, Repr

structure RelationshipRecord (ω : Type) where
  id : String
  humanReadableId : ℤ
  source : String
  target : String
  description : StringListCell
  weight : ω
  combinedDegree : ℤ
  textUnitIds : StringListCell
deriving DecidableEq, Repr

/-- The source and target of a relationship. -/
def RelationshipRecord.endpoints {ω : Type} (record : RelationshipRecord ω) : String × String :=
  (record.source, record.target)

structure TextUnitRecord where
  id : String
  humanReadableId : ℤ
  text : String
  nTokens : ℤ
  documentId : String
  entityIds : StringListCell
  relationshipIds : StringListCell
  covariateIds : StringListCell
deriving DecidableEq, Repr

structure CovariateRecord where
  id : String
  humanReadableId : ℤ
  covariateType : String
  claimType : Option String
  description : Option String
  subjectId : Option String
  objectId : Option String
  status : Option String
  startDate : Option String
  endDate : Option String
  sourceText : Option String
  textUnitId : String
deriving DecidableEq, Repr

structure CommunityRecord where
  id : String
  humanReadableId : ℤ
  community : Option ℤ
  level : ℤ
  parent : Option ℤ
  children : List ℤ
  title : String
  entityIds : StringListCell
  relationshipIds : StringListCell
  textUnitIds : StringListCell
  period : Option String
  size : Option ℤ
deriving DecidableEq, Repr

/-- A finding of a report. -/
structure Finding where
  summary : String
  explanation : String
deriving DecidableEq, Repr

structure CommunityReportRecord (ω : Type) where
  id : String
  humanReadableId : ℤ
  community : Option ℤ
  level : ℤ
  parent : Option ℤ
  children : List ℤ
  title : String
  summary : String
  fullContent : String
  rank : ω
  ratingExplanation : String
  findings : List Finding
  fullContentJson : String
  period : Option String
  size : Option ℤ
deriving DecidableEq, Repr

instance : HumanReadable DocumentRecord where
  humanReadableId row := row.humanReadableId
  withHumanReadableId i row := { row with humanReadableId := i }
  humanReadableId_with _ _ := rfl
  with_with _ _ _ := rfl
  with_self _ := rfl

instance : HumanReadable EntityRecord where
  humanReadableId row := row.humanReadableId
  withHumanReadableId i row := { row with humanReadableId := i }
  humanReadableId_with _ _ := rfl
  with_with _ _ _ := rfl
  with_self _ := rfl

instance {ω : Type} : HumanReadable (RelationshipRecord ω) where
  humanReadableId row := row.humanReadableId
  withHumanReadableId i row := { row with humanReadableId := i }
  humanReadableId_with _ _ := rfl
  with_with _ _ _ := rfl
  with_self _ := rfl

instance : HumanReadable TextUnitRecord where
  humanReadableId row := row.humanReadableId
  withHumanReadableId i row := { row with humanReadableId := i }
  humanReadableId_with _ _ := rfl
  with_with _ _ _ := rfl
  with_self _ := rfl

instance : HumanReadable CovariateRecord where
  humanReadableId row := row.humanReadableId
  withHumanReadableId i row := { row with humanReadableId := i }
  humanReadableId_with _ _ := rfl
  with_with _ _ _ := rfl
  with_self _ := rfl

/-! ### Tables -/

/-- The tables of one provider. -/
structure Tables (ω : Type) where
  documents : Option (List DocumentRecord) := none
  entities : Option (List EntityRecord) := none
  relationships : Option (List (RelationshipRecord ω)) := none
  textUnits : Option (List TextUnitRecord) := none
  covariates : Option (List CovariateRecord) := none
  communities : Option (List CommunityRecord) := none
  communityReports : Option (List (CommunityReportRecord ω)) := none

/-- `TableProvider::read_dataframe`. -/
def readDataframe {ρ : Type} (name : String) (table : Option (List ρ)) :
    Except GraphLoomError (List ρ) :=
  okOr (.missingTable name) table

/-- The rows of a table that may be absent. -/
def rowsOf {ρ : Type} (table : Option (List ρ)) : List ρ := table.getD []

@[simp]
theorem rowsOf_some {ρ : Type} (rows : List ρ) : rowsOf (some rows) = rows := rfl

@[simp]
theorem rowsOf_none {ρ : Type} : rowsOf (none : Option (List ρ)) = [] := rfl

@[simp]
theorem readDataframe_eq_ok_iff {ρ : Type} {name : String} {table : Option (List ρ)}
    {rows : List ρ} : readDataframe name table = .ok rows ↔ table = some rows :=
  okOr_eq_ok_iff

end GraphLoom
