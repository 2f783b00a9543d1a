import GraphLoom.Foundation.Grouping
import GraphLoom.Query.DataModel
import GraphLoom.Query.Frame
import GraphLoom.Query.Global.Dynamic
import Mathlib.Data.String.Basic

/-!
# Adapters of index tables

The tables of an index become the records of queries.  A column that is missing or of another type
is an error, and so is a value that a reader does not take.
-/

namespace GraphLoom.Query

open Foundation

/-! ### Errors -/

def invalidTable (method : SearchMethod) (table column expected actual : String) (row : ℕ)
    (message : String) : QueryError :=
  .invalidQueryTable method "adapt query table"
    { table
      column
      expected
      actual
      row := " at row " ++ toString row
      message
      source := none }

/-! ### Columns -/

/-- `column_type_matches`. -/
def columnTypeMatches (dtype : DataType) (expected : String) : Bool :=
  if dtype = .null ∧ expected.startsWith "nullable " then true
  else match expected with
  | "string" | "nullable string" => dtype = .string
  | "string or integer" | "nullable string or integer" => dtype = .string ∨ dtype.isInteger
  | "integer" | "nullable integer" => dtype.isInteger
  | "nullable community number" | "nullable float" => dtype.isInteger ∨ dtype.isFloat
  | "nullable string or list<string>" =>
    dtype = .string ∨ dtype = .list .string ∨ dtype = .list .null
  | "list<string>" => dtype = .list .string ∨ dtype = .list .null
  | "list<integer>" | "nullable list<integer>" => match dtype with
    | .list inner => inner = .null ∨ inner.isInteger
    | _ => false
  | _ => false

/-- Where a value is read, and as what. -/
structure CellAt where
  method : SearchMethod
  table : String
  name : String
  expected : String
  row : ℕ

def CellAt.error (cell : CellAt) (actual message : String) : QueryError :=
  invalidTable cell.method cell.table cell.name cell.expected actual cell.row message

def validateColumnType (cell : CellAt) (column : Column) : Except QueryError Unit :=
  if columnTypeMatches column.dtype cell.expected then .ok ()
  else .error (cell.error column.dtype.display "column has an incompatible physical type")

def requiredColumn (frame : DataFrame) (cell : CellAt) : Except QueryError Column :=
  match frame.column cell.name with
  | none => .error (cell.error "missing" "required column is absent")
  | some column => do
    validateColumnType cell column
    return column

def optionalColumn (frame : DataFrame) (cell : CellAt) : Except QueryError (Option Column) :=
  match frame.column cell.name with
  | none => .ok none
  | some column =>
    if column.dtype = .null then .ok (some column)
    else do
      validateColumnType cell column
      return some column

def validateSchema (frame : DataFrame) (method : SearchMethod) (table : String)
    (required optional : List (String × String)) : Except QueryError Unit := do
  required.forM fun (name, expected) => do
    let _ ← requiredColumn frame ⟨method, table, name, expected, 0⟩
  optional.forM fun (name, expected) => do
    let _ ← optionalColumn frame ⟨method, table, name, expected, 0⟩

/-- The value, and the text of its column's type. -/
def requiredValue (frame : DataFrame) (cell : CellAt) : Except QueryError (AnyValue × String) := do
  let column ← requiredColumn frame cell
  return (column.get cell.row, column.dtype.display)

def optionalValue (frame : DataFrame) (cell : CellAt) :
    Except QueryError (Option (AnyValue × String)) := do
  match ← optionalColumn frame cell with
  | none => return none
  | some column => return some (column.get cell.row, column.dtype.display)

/-! ### Values -/

def stringValue : AnyValue → Option String
  | .string value => some value
  | _ => none

/-- A null is no integer; the error is a text. -/
def integerValue : AnyValue → Except String (Option ℤ)
  | .null => .ok none
  | .int32 value | .int64 value | .uint32 value => .ok (some value)
  | .uint64 value =>
    if value < 2 ^ 63 then .ok (some value)
    else .error ("unsigned value " ++ toString value ++ " exceeds i64")
  | _ => .error "incompatible integer value"

def stringishValue (value : AnyValue) : Option String :=
  match stringValue value with
  | some value => some value
  | none => match integerValue value with
    | .ok (some value) => some (toString value)
    | _ => none

/-- The integer that a float is, if it is one. -/
def integralValue (x : F64) : Option ℤ :=
  let exponent := (x.bits.extractLsb' 52 11).toNat
  let fraction := (x.bits.extractLsb' 0 52).toNat
  let mantissa := if exponent = 0 then fraction else fraction + 2 ^ 52
  let shift := max exponent 1
  let magnitude :=
    if 1075 ≤ shift then some (mantissa * 2 ^ (shift - 1075))
    else if mantissa % 2 ^ (1075 - shift) = 0 then some (mantissa / 2 ^ (1075 - shift))
    else none
  magnitude.map fun magnitude => if x.bits.msb then -(magnitude : ℤ) else magnitude

/-- `integral_f64`. -/
def integralF64 (cell : CellAt) (actual : String) (value : F64) : Except QueryError ℤ :=
  let outside := { cell with expected := "integral finite community number" }.error actual
    "value cannot be represented as i64"
  if value.isFinite then
    match integralValue value with
    | some value => if -2 ^ 63 ≤ value ∧ value < 2 ^ 63 then .ok value else .error outside
    | none => .error outside
  else .error outside

section Readers

variable (frame : DataFrame) (row : ℕ) (name : String) (method : SearchMethod) (table : String)

def requiredString : Except QueryError String := do
  let cell : CellAt := ⟨method, table, name, "string", row⟩
  let (value, actual) ← requiredValue frame cell
  match stringValue value with
  | some value => return value
  | none => throw (cell.error actual "value is null or not UTF-8")

def optionalString : Except QueryError (Option String) := do
  let cell : CellAt := ⟨method, table, name, "nullable string", row⟩
  match ← optionalValue frame cell with
  | none | some (.null, _) => return none
  | some (value, actual) => match stringValue value with
    | some value => return some value
    | none => throw (cell.error actual "incompatible value")

def optionalStringish : Except QueryError (Option String) := do
  let cell : CellAt := ⟨method, table, name, "nullable string or integer", row⟩
  match ← optionalValue frame cell with
  | none | some (.null, _) => return none
  | some (value, actual) => match stringishValue value with
    | some value => return some value
    | none => throw (cell.error actual "incompatible value")

def requiredI64 : Except QueryError ℤ := do
  let cell : CellAt := ⟨method, table, name, "integer", row⟩
  let (value, actual) ← requiredValue frame cell
  match integerValue value with
  | .ok (some value) => return value
  | .ok none => throw (cell.error actual "value is null")
  | .error message => throw (cell.error actual message)

def optionalI64 : Except QueryError (Option ℤ) := do
  let cell : CellAt := ⟨method, table, name, "nullable integer", row⟩
  match ← optionalValue frame cell with
  | none => return none
  | some (value, actual) => match integerValue value with
    | .ok value => return value
    | .error message => throw (cell.error actual message)

def optionalCommunityId : Except QueryError (Option ℤ) := do
  let cell : CellAt := ⟨method, table, name, "nullable community number", row⟩
  match ← optionalValue frame cell with
  | none | some (.null, _) => return none
  | some (.float32 value, actual) | some (.float64 value, actual) =>
    return some (← integralF64 cell actual value)
  | some (value, actual) => match integerValue value with
    | .ok value => return value
    | .error message => throw (cell.error actual message)

def requiredCommunityId : Except QueryError ℤ := do
  match ← optionalCommunityId frame row name method table with
  | some community => return community
  | none => throw (invalidTable method table name "nullable community number"
      ((frame.column name).elim "missing" fun column => column.dtype.display) row "value is null")

/-- `as f64` of an integer is a parameter. -/
def optionalF64 (asF64 : ℤ → F64) : Except QueryError (Option F64) := do
  let cell : CellAt := ⟨method, table, name, "nullable float", row⟩
  let finite (actual : String) (converted : F64) : Except QueryError (Option F64) :=
    if converted.isFinite then .ok (some converted)
    else .error ({ cell with expected := "finite float" }.error actual "value is non-finite")
  match ← optionalValue frame cell with
  | none | some (.null, _) => return none
  | some (.float32 value, actual) | some (.float64 value, actual) => finite actual value
  | some (.int32 value, actual) | some (.int64 value, actual) | some (.uint32 value, actual)
  | some (.uint64 value, actual) => finite actual (asF64 value)
  | some (_, actual) => throw (cell.error actual "incompatible value")

/-- `string_list_value`. -/
def stringListValue (cell : CellAt) (actual : String) : AnyValue → Except QueryError (List String)
  | .null => .ok []
  | .list items => items.mapM fun item => match stringValue item with
    | some value => .ok value
    | none => .error (cell.error actual "list contains a null or non-string value")
  | _ => .error (cell.error actual "incompatible value")

def optionalStringList : Except QueryError (List String) := do
  let cell : CellAt := ⟨method, table, name, "nullable string or list<string>", row⟩
  match ← optionalValue frame cell with
  | none => return []
  | some (.string value, _) => return [value]
  | some (value, actual) => stringListValue cell actual value

def requiredStringList : Except QueryError (List String) := do
  let cell : CellAt := ⟨method, table, name, "list<string>", row⟩
  match ← requiredValue frame cell with
  | (.null, actual) => throw (cell.error actual "value is null")
  | (value, actual) => stringListValue cell actual value

def requiredI64List : Except QueryError (List ℤ) := do
  let cell : CellAt := ⟨method, table, name, "list<integer>", row⟩
  match ← requiredValue frame cell with
  | (.null, actual) => throw (cell.error actual "value is null")
  | (.list items, actual) => items.mapM fun item => match integerValue item with
    | .ok (some value) => .ok value
    | .ok none => .error (cell.error actual "list contains a null value")
    | .error message => .error (cell.error actual message)
  | (_, actual) => throw (cell.error actual "incompatible value")

end Readers

/-- Read the rows in their order; a row may be left out. -/
def readRows {α : Type} (frame : DataFrame) (read : ℕ → Except QueryError (Option α)) :
    Except QueryError (List α) := do
  return (← (List.range frame.height).mapM read).reduceOption

/-! ### Entities -/

/-- An entity with the type that only its table has. -/
structure IndexerEntity extends Entity where
  entityType : Option String
deriving DecidableEq, Repr

structure CommunityMembership where
  community : ℤ
  level : ℤ
  entityIds : List String
deriving DecidableEq, Repr

def communityMemberships (frame : DataFrame) (method : SearchMethod) :
    Except QueryError (List CommunityMembership) :=
  (List.range frame.height).mapM fun row => do
    let community ← requiredI64 frame row "community" method "communities"
    let level ← requiredI64 frame row "level" method "communities"
    let entityIds ← requiredStringList frame row "entity_ids" method "communities"
    return { community, level, entityIds }

/-- The communities of each entity id, in ascending order. -/
def membershipByEntity (communityLevel : ℤ) (memberships : List CommunityMembership) :
    List (String × List ℤ) :=
  let members := (memberships.filter fun row => row.level ≤ communityLevel).flatMap fun row =>
    row.entityIds.map fun entityId => (entityId, row.community)
  (groupBy Prod.fst members).map fun (entityId, members) =>
    (entityId, sortedSet (members.map Prod.snd))

def entityCommunityIds (membership : List (String × List ℤ)) (id : String) : List String :=
  match membership.lookup id with
  | none => ["-1"]
  | some communities => communities.map toString

/-- One row; an id that has been seen is passed over. -/
def readEntityRow (frame : DataFrame) (membership : List (String × List ℤ)) (method : SearchMethod)
    (state : List String × List IndexerEntity) (row : ℕ) :
    Except QueryError (List String × List IndexerEntity) := do
  let (seenIds, rows) := state
  let id ← requiredString frame row "id" method "entities"
  if id ∈ seenIds then return (seenIds, rows)
  else do
    let shortId ← optionalStringish frame row "human_readable_id" method "entities"
    let title ← requiredString frame row "title" method "entities"
    let entityType ← optionalString frame row "type" method "entities"
    let description ← optionalString frame row "description" method "entities"
    let textUnitIds ← optionalStringList frame row "text_unit_ids" method "entities"
    let rank ← optionalI64 frame row "degree" method "entities"
    let entity : IndexerEntity :=
      { id, shortId, title, entityType, description
        communityIds := entityCommunityIds membership id
        textUnitIds, rank }
    return (id :: seenIds, rows ++ [entity])

def readIndexerEntities (entities communities : DataFrame) (communityLevel : ℤ)
    (method : SearchMethod) : Except QueryError (List IndexerEntity) := do
  validateSchema entities method "entities" [("id", "string"), ("title", "string")]
    [("human_readable_id", "nullable string or integer"), ("type", "nullable string"),
      ("description", "nullable string"), ("degree", "nullable integer"),
      ("text_unit_ids", "nullable string or list<string>")]
  validateSchema communities method "communities"
    [("community", "integer"), ("level", "integer"), ("entity_ids", "list<string>")] []
  let membership := membershipByEntity communityLevel (← communityMemberships communities method)
  let (_, rows) ← (List.range entities.height).foldlM (readEntityRow entities membership method)
    ([], [])
  return rows

/-! ### Reports -/

/-- A report with the summary that Global Search reads. -/
structure IndexerReport extends CommunityReport where
  summary : String
deriving DecidableEq, Repr

structure CommunityRollupRow where
  community : ℤ
  title : String
deriving DecidableEq, Repr

def communityRollupRows (frame : DataFrame) (communityLevel : ℤ) (method : SearchMethod) :
    Except QueryError (List CommunityRollupRow) :=
  readRows frame fun row => do
    let level ← requiredI64 frame row "level" method "communities"
    if level > communityLevel then return none
    else match ← optionalString frame row "title" method "communities" with
    | none => return none
    | some title =>
      let community ← optionalCommunityId frame row "community" method "communities"
      return some { community := community.getD (-1), title }

def validateDynamicCommunityRows (frame : DataFrame) (method : SearchMethod) :
    Except QueryError Unit :=
  (List.range frame.height).forM fun row => do
    let _ ← requiredI64 frame row "level" method "communities"

/-- The largest community of each title, in the order of the titles. -/
def pushTitleMax (title : String) (community : ℤ) : List (String × ℤ) → List (String × ℤ)
  | [] => [(title, community)]
  | (other, largest) :: titles =>
    if other = title then (other, max largest community) :: titles
    else (other, largest) :: pushTitleMax title community titles

def titleMax (memberships : List CommunityRollupRow) : List (String × ℤ) :=
  memberships.foldl (fun titles row => pushTitleMax row.title row.community titles) []

def rollupCommunities (memberships : List CommunityRollupRow) : List ℤ :=
  (titleMax memberships).foldl (fun communities (_, community) =>
    if community ∈ communities then communities else communities ++ [community]) []

/-- The communities whose reports are read; with dynamic selection, all of them. -/
def allowedCommunities (communities : DataFrame) (communityLevel : ℤ) (dynamic : Bool)
    (method : SearchMethod) : Except QueryError (Option (List ℤ)) :=
  if dynamic then do
    validateDynamicCommunityRows communities method
    return none
  else do
    let memberships ← communityRollupRows communities communityLevel method
    return some (rollupCommunities memberships)

/-- With dynamic selection a report has to have a community. -/
def reportCommunity (reports : DataFrame) (dynamic : Bool) (method : SearchMethod) (row : ℕ) :
    Except QueryError (Option ℤ) :=
  if dynamic then
    some <$> requiredCommunityId reports row "community" method "community_reports"
  else optionalCommunityId reports row "community" method "community_reports"

def readReportRow (asF64 : ℤ → F64) (reports : DataFrame) (communityLevel : ℤ) (dynamic : Bool)
    (method : SearchMethod) (allowed : Option (List ℤ)) (row : ℕ) :
    Except QueryError (Option IndexerReport) := do
  let level ← requiredI64 reports row "level" method "community_reports"
  if level > communityLevel then return none
  else do
    match ← reportCommunity reports dynamic method row with
    | none => return none
    | some community =>
      if allowed.any fun communities => community ∉ communities then return none
      else do
        let id ← requiredString reports row "id" method "community_reports"
        let title ← requiredString reports row "title" method "community_reports"
        let summary ← requiredString reports row "summary" method "community_reports"
        let fullContent ← requiredString reports row "full_content" method "community_reports"
        let rank ← optionalF64 reports row "rank" method "community_reports" asF64
        return some
          { id
            shortId := toString community
            communityId := toString community
            title, summary, fullContent, rank }

def readIndexerReports (asF64 : ℤ → F64) (reports communities : DataFrame) (communityLevel : ℤ)
    (dynamic : Bool) (method : SearchMethod) : Except QueryError (List IndexerReport) := do
  validateSchema reports method "community_reports"
    [("id", "string"), ("community", "nullable community number"), ("level", "integer"),
      ("title", "string"), ("summary", "string"), ("full_content", "string")]
    [("rank", "nullable float")]
  validateSchema communities method "communities"
    (if dynamic then [("level", "integer"), ("entity_ids", "list<string>")]
    else [("level", "integer"), ("entity_ids", "list<string>"),
      ("community", "nullable community number"), ("title", "nullable string")]) []
  let allowed ← allowedCommunities communities communityLevel dynamic method
  readRows reports (readReportRow asF64 reports communityLevel dynamic method allowed)

/-! ### Communities -/

/-- A community with the id and the title of its row. -/
structure IndexerCommunity extends Global.Community where
  id : String
  title : String
deriving DecidableEq, Repr

def readCommunityRow (communities : DataFrame) (method : SearchMethod) (reportIds : List ℤ)
    (row : ℕ) : Except QueryError (Option IndexerCommunity) := do
  let community ← requiredI64 communities row "community" method "communities"
  -- a community without a report is not available, which is a warning
  if community ∉ reportIds then return none
  else do
    let id ← requiredString communities row "id" method "communities"
    let title ← requiredString communities row "title" method "communities"
    let level ← requiredI64 communities row "level" method "communities"
    let parent ← requiredI64 communities row "parent" method "communities"
    let children ← requiredI64List communities row "children" method "communities"
    return some { id, shortId := toString community, title, level, parent, children }

def readIndexerCommunities (communities reports : DataFrame) (method : SearchMethod) :
    Except QueryError (List IndexerCommunity) := do
  validateSchema communities method "communities"
    [("id", "string"), ("community", "integer"), ("title", "string"), ("level", "integer"),
      ("parent", "integer"), ("children", "list<integer>")] []
  validateSchema reports method "community_reports" [("community", "integer")] []
  let reportIds ← (List.range reports.height).mapM fun row =>
    requiredI64 reports row "community" method "community_reports"
  readRows communities (readCommunityRow communities method reportIds)

end GraphLoom.Query
