import GraphLoom.Foundation.Json
import GraphLoom.Foundation.TreeMaps

/-!
# Data of queries

The records that Local Search works on and the index that finds them.  The values of the index are
positions in the tables.
-/

namespace GraphLoom.Query

open Foundation Std

structure Entity where
  id : String
  shortId : Option String
  title : String
  description : Option String
  communityIds : List String
  textUnitIds : List String
  rank : Option ℤ
deriving DecidableEq, Repr

structure Relationship where
  id : String
  shortId : Option String
  source : String
  target : String
  description : Option String
  weight : Option F64
  rank : Option ℤ
  textUnitIds : List String
deriving DecidableEq, Repr

structure CommunityReport where
  id : String
  shortId : String
  communityId : String
  title : String
  fullContent : String
  rank : Option F64
deriving DecidableEq, Repr

structure TextUnit where
  id : String
  shortId : String
  text : String
  relationshipIds : List String
deriving DecidableEq, Repr

structure Covariate where
  id : String
  shortId : Option String
  subjectId : String
  covariateType : String
  objectId : Option String
  status : Option String
  startDate : Option String
  endDate : Option String
  description : Option String
deriving DecidableEq, Repr

/-- The hash maps are used for lookups only. -/
structure QueryDataIndex where
  entityById : ExtTreeMap String ℕ
  entityByTitle : ExtTreeMap String (List ℕ)
  reportByCommunityId : ExtTreeMap String ℕ
  textUnitById : ExtTreeMap String ℕ
  relationshipsByEntity : ExtTreeMap String (List ℕ)
  covariatesBySubject : ExtTreeMap String (List ℕ)
  covariateGroups : List (String × ExtTreeSet ℕ)

/-- The positions of the rows by a key; the last of the rows with a key counts. -/
def positionByKey {α : Type} (key : α → String) (rows : List α) : ExtTreeMap String ℕ :=
  ExtTreeMap.ofList (rows.zipIdx.map fun row => (key row.1, row.2))

def positionsByKey {α : Type} (key : α → String) (rows : List α) : ExtTreeMap String (List ℕ) :=
  rows.zipIdx.foldl (fun positions row => pushAt positions (key row.1) row.2) ∅

/-- A loop is listed once. -/
def addRelationship (positions : ExtTreeMap String (List ℕ)) (row : Relationship × ℕ) :
    ExtTreeMap String (List ℕ) :=
  let positions := pushAt positions row.1.source row.2
  if row.1.target ≠ row.1.source then pushAt positions row.1.target row.2 else positions

def addToGroup (name : String) (position : ℕ) :
    List (String × ExtTreeSet ℕ) → List (String × ExtTreeSet ℕ)
  | [] => [(name, (∅ : ExtTreeSet ℕ).insert position)]
  | (other, positions) :: groups =>
    if other = name then (other, positions.insert position) :: groups
    else (other, positions) :: addToGroup name position groups

def QueryDataIndex.new (entities : List Entity) (reports : List CommunityReport)
    (textUnits : List TextUnit) (relationships : List Relationship) (covariates : List Covariate) :
    QueryDataIndex where
  entityById := positionByKey (·.id) entities
  entityByTitle := positionsByKey (·.title) entities
  reportByCommunityId := positionByKey (·.communityId) reports
  textUnitById := positionByKey (·.id) textUnits
  relationshipsByEntity := relationships.zipIdx.foldl addRelationship ∅
  covariatesBySubject := positionsByKey (·.subjectId) covariates
  covariateGroups := covariates.zipIdx.foldl
    (fun groups row => addToGroup row.1.covariateType row.2 groups) []

/-- All covariates are in one group. -/
def QueryDataIndex.newWithSingleCovariateGroup (entities : List Entity)
    (reports : List CommunityReport) (textUnits : List TextUnit)
    (relationships : List Relationship) (covariates : List Covariate) (groupName : String) :
    QueryDataIndex :=
  { QueryDataIndex.new entities reports textUnits relationships covariates with
    covariateGroups := [(groupName, ExtTreeSet.ofList (List.range covariates.length))] }

end GraphLoom.Query
