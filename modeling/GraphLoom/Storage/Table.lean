import GraphLoom.Foundation.FileSystem
import GraphLoom.Foundation.Paths
import GraphLoom.Text
import Mathlib.Data.Finset.Sort
import Mathlib.Data.String.Basic

/-!
# Tables

The errors of the storage and the checks of the names that it is given.

A handle of a table holds what the table was when it was opened and the rows that have been staged.
Data frames and their Parquet encoding are parameters.

One map holds the tables of all namespaces; a table is found under its namespace and name.
-/

namespace GraphLoom.Storage

section Names

open Foundation

inductive StorageError where
  | invalidPath (path reason : String)
  | filesystem (path : Path) (source : IoErrorKind)
  | polars (message : String)
  -- the names are those of the reason
  | schemaMismatch (column : String) (pendingNames existingNames : List String)
  | tableClosed (name : String)
  | missingTable (name : String)
deriving DecidableEq, Repr

def isSafePathComponent (component : String) : Bool :=
  component ≠ "" && component ≠ "." && component ≠ ".." &&
    !component.toList.contains '\x00' && !component.toList.contains '/' &&
    !component.toList.contains '\\'

def isTableNameChar (c : Char) : Bool := c.isAlphanum || c == '_' || c == '-'

def validateTableName (tableName : String) : Except StorageError String :=
  if tableName = "" ∨ 128 < tableName.utf8ByteSize ∨ ¬ tableName.toList.all isTableNameChar then
    .error (.invalidPath tableName "table names must match [A-Za-z0-9_-]\x7b1,128\x7d")
  else .ok tableName

/-- The names of a path. -/
def validateLogicalPath (path : String) : Except StorageError (List String) :=
  if path = "" then .ok []
  else if isAbsolute path then .error (.invalidPath path "absolute paths are not allowed")
  else (components path).mapM fun component =>
    match component with
    | .normal name =>
      if isSafePathComponent name then .ok name
      else .error (.invalidPath path "path traversal and special components are not allowed")
    | _ => .error (.invalidPath path "path traversal and special components are not allowed")

def pathToLogical (path : List String) : String := "/".intercalate path

def stripNamespace (key nspace : String) : String :=
  if nspace = "" then key
  else ((stripPrefix nspace key).bind (stripPrefix "/")).getD key

end Names

/-! ## Tables -/

section Tables

/-! ### Data frames -/

inductive AnyValue (ν : Type) where
  | string (value : String)
  | stringOwned (value : String)
  | other (value : ν)
deriving DecidableEq, Repr

def AnyValue.intoStatic {ν : Type} : AnyValue ν → AnyValue ν
  | .string value => .stringOwned value
  | value => value

/-- What the tables use of the data frames of Polars; the bytes of a Parquet file are a string. -/
class DataFrame (δ : Type) (ν : outParam Type) where
  empty : δ
  height : δ → ℕ
  width : δ → ℕ
  columnNames : δ → List String
  getRow : δ → ℕ → Except String (List (AnyValue ν))
  select : δ → List String → Except String δ
  vstack : δ → δ → Except String δ
  finishRead : String → Except String δ
  finishWrite : δ → Except String String

open DataFrame

variable {δ ν : Type} [DataFrame δ ν]

/-- The names in their order. -/
def sortedNames (names : Finset String) : List String := names.sort (· ≤ ·)

theorem mem_sortedNames {names : Finset String} {name : String} :
    name ∈ sortedNames names ↔ name ∈ names :=
  Finset.mem_sort _

def columnNameSet (dataframe : δ) : List String := sortedNames (columnNames dataframe).toFinset

def appendDataframe (existing pending : δ) : Except StorageError δ :=
  if height existing = 0 then .ok pending
  else if height pending = 0 then .ok existing
  else if columnNameSet existing ≠ columnNameSet pending then
    .error (.schemaMismatch "<table>" (columnNameSet pending) (columnNameSet existing))
  else do
    let pending ← (select pending (columnNames existing)).mapError .polars
    (vstack existing pending).mapError .polars

def appendOptionalDataframe (existing : Option δ) (pending : δ) : Except StorageError δ :=
  match existing with
  | none => .ok pending
  | some existing => appendDataframe existing pending

/-! ### Rows -/

def rowFromDataframe (dataframe : δ) (rowIndex : ℕ) : Except StorageError (List (AnyValue ν)) :=
  ((getRow dataframe rowIndex).mapError .polars).map fun row => row.map AnyValue.intoStatic

/-- The next row with the new `read_index`. -/
def nextDataframeRow (existing : Option δ) (pending : δ) (readIndex : ℕ) :
    Except StorageError (Option (List (AnyValue ν))) × ℕ :=
  let existingRows := (existing.map height).getD 0
  let row : Except StorageError (Option (List (AnyValue ν))) :=
    match existing.filter fun _ => readIndex < existingRows with
    | some existing => (rowFromDataframe existing readIndex).map some
    | none =>
      if height pending ≤ readIndex - existingRows then .ok none
      else (rowFromDataframe pending (readIndex - existingRows)).map some
  match row with
  | .ok (some row) => (.ok (some row), readIndex + 1)
  | row => (row, readIndex)

def rowMatchesId (row : List (AnyValue ν)) (idIndex : ℕ) (rowId : String) : Bool :=
  match row[idIndex]? with
  | some (.string value) => value = rowId
  | some (.stringOwned value) => value = rowId
  | _ => false

def idColumnIndex (dataframe : δ) : Option ℕ :=
  (columnNames dataframe).findIdx? fun name => name = "id"

/-- The loop of `has` over the rows of one data frame. -/
def anyRowMatches (dataframe : δ) (idIndex : ℕ) (rowId : String) :
    List ℕ → Except StorageError Bool
  | [] => .ok false
  | rowIndex :: rest => do
    let row ← rowFromDataframe dataframe rowIndex
    if rowMatchesId row idIndex rowId then .ok true
    else anyRowMatches dataframe idIndex rowId rest

/-! ### Staged tables -/

/-- What the handles of both providers hold. -/
structure StagedTable (δ : Type) where
  existing : Option δ
  truncate : Bool
  pending : δ
  readIndex : ℕ
  closed : Bool

namespace StagedTable

variable (table : StagedTable δ)

def opened (existing : Option δ) (truncate : Bool) : StagedTable δ :=
  ⟨existing, truncate, DataFrame.empty, 0, false⟩

/-- `check_open`, with the name of the table in the error. -/
def checkOpen (name : String) : Except StorageError Unit :=
  if table.closed then .error (.tableClosed name) else .ok ()

/-- The staged rows are taken, and lost when the rows cannot be appended. -/
def write (name : String) (dataframe : δ) : Except StorageError Unit × StagedTable δ :=
  match table.checkOpen name with
  | .error error => (.error error, table)
  | .ok () =>
    match appendOptionalDataframe (some table.pending) dataframe with
    | .ok pending => (.ok (), { table with pending })
    | .error error => (.error error, { table with pending := DataFrame.empty })

def length : ℕ := (table.existing.map height).getD 0 + height table.pending

def columnNames : List String :=
  DataFrame.columnNames ((table.existing.filter fun dataframe => 0 < width dataframe).getD
    table.pending)

def abort : StagedTable δ := { table with pending := DataFrame.empty, closed := true }

/-- The first rows of a new stream.  It ends after an error. -/
def rows : ℕ → StagedTable δ → List (Except StorageError (List (AnyValue ν))) × StagedTable δ
  | 0, table => ([], table)
  | count + 1, table =>
    match nextDataframeRow table.existing table.pending table.readIndex with
    | (.ok (some row), readIndex) =>
      let rest := rows count { table with readIndex }
      (.ok row :: rest.1, rest.2)
    | (.ok none, readIndex) => ([], { table with readIndex })
    | (.error error, readIndex) => ([.error error], { table with readIndex })

def hasPending (rowId : String) : Except StorageError Bool :=
  match idColumnIndex table.pending with
  | none => .ok false
  | some idIndex => anyRowMatches table.pending idIndex rowId (List.range (height table.pending))

def has (rowId : String) : Except StorageError Bool :=
  match table.existing with
  | none => table.hasPending rowId
  | some existing =>
    match idColumnIndex existing with
    | none => .ok false
    | some idIndex =>
      match anyRowMatches existing idIndex rowId (List.range (height existing)) with
      | .ok false => table.hasPending rowId
      | found => found

/-- Closing has nothing to write. -/
def nothingStaged : Bool :=
  height table.pending = 0 && (!table.truncate || width table.pending = 0)

end StagedTable

/-! ### Providers -/

/-- The traits `TableProvider` and `Table`: views `π` and handles `τ` of a store `σ`. -/
structure TableProvider (σ π τ δ ν : Type) where
  readDataframe : π → String → σ → Except StorageError δ
  readOptionalDataframe : π → String → σ → Except StorageError (Option δ)
  writeDataframe : π → String → δ → σ → Except StorageError Unit × σ
  has : π → String → σ → Except StorageError Bool
  list : π → σ → Except StorageError (List String)
  openTable : π → String → Bool → σ → Except StorageError τ
  child : π → Option String → Except StorageError π
  write : τ → δ → Except StorageError Unit × τ
  length : τ → ℕ
  columnNames : τ → List String
  close : τ → σ → Except StorageError Unit × τ × σ
  abort : τ → τ
  rows : ℕ → τ → List (Except StorageError (List (AnyValue ν))) × τ
  hasRow : τ → String → Except StorageError Bool

/-- The default `read_optional_dataframe` of the trait. -/
def defaultReadOptionalDataframe (read : Except StorageError δ) :
    Except StorageError (Option δ) :=
  match read with
  | .ok dataframe => .ok (some dataframe)
  | .error (.missingTable _) => .ok none
  | .error source => .error source

end Tables

/-! ## Tables in memory -/

section MemoryTables

open DataFrame

abbrev MemoryTables (δ : Type) := Finmap fun _ : String => δ

structure MemoryTableProvider where
  nspace : String
deriving DecidableEq, Repr

structure MemoryTable (δ : Type) where
  key : String
  staged : StagedTable δ

variable {δ ν : Type} [DataFrame δ ν]

namespace MemoryTableProvider

variable (provider : MemoryTableProvider)

def key (tableName : String) : Except StorageError String := do
  let name ← validateTableName tableName
  if provider.nspace = "" then .ok name else .ok (provider.nspace ++ "/" ++ name)

def readDataframe (tableName : String) (tables : MemoryTables δ) : Except StorageError δ := do
  let key ← provider.key tableName
  match tables.lookup key with
  | some dataframe => .ok dataframe
  | none => .error (.missingTable tableName)

def writeDataframe (tableName : String) (dataframe : δ) (tables : MemoryTables δ) :
    Except StorageError Unit × MemoryTables δ :=
  match provider.key tableName with
  | .ok key => (.ok (), tables.insert key dataframe)
  | .error error => (.error error, tables)

def has (tableName : String) (tables : MemoryTables δ) : Except StorageError Bool := do
  let key ← provider.key tableName
  .ok (decide (key ∈ tables))

/-- What a key is listed as. -/
def listed (key : String) : Option String :=
  if provider.nspace = "" ∨ startsWith (provider.nspace ++ "/") key then
    some (stripNamespace key provider.nspace)
  else none

def list (tables : MemoryTables δ) : Except StorageError (List String) :=
  .ok (((sortedNames tables.keys).filterMap provider.listed).mergeSort (· ≤ ·))

def openTable (tableName : String) (truncate : Bool) (tables : MemoryTables δ) :
    Except StorageError (MemoryTable δ) := do
  let key ← provider.key tableName
  .ok ⟨key, .opened (if truncate then none else tables.lookup key) truncate⟩

def child (nspace : Option String) : Except StorageError MemoryTableProvider :=
  match nspace with
  | none => .ok provider
  | some nspace => do
    let child := pathToLogical (← validateLogicalPath nspace)
    .ok ⟨if provider.nspace = "" then child else provider.nspace ++ "/" ++ child⟩

end MemoryTableProvider

/-- The rows that have been staged follow those that are there now. -/
def MemoryTable.close (table : MemoryTable δ) (tables : MemoryTables δ) :
    Except StorageError Unit × MemoryTable δ × MemoryTables δ :=
  match table.staged.checkOpen table.key with
  | .error error => (.error error, table, tables)
  | .ok () =>
    let closed : MemoryTable δ := { table with staged := { table.staged with closed := true } }
    if table.staged.nothingStaged then (.ok (), closed, tables)
    else
      let existing := if table.staged.truncate then none else tables.lookup table.key
      match appendOptionalDataframe existing table.staged.pending with
      | .error error => (.error error, table, tables)
      | .ok dataframe => (.ok (), closed, tables.insert table.key dataframe)

def memoryProvider : TableProvider (MemoryTables δ) MemoryTableProvider (MemoryTable δ) δ ν where
  readDataframe := MemoryTableProvider.readDataframe
  readOptionalDataframe provider tableName tables :=
    defaultReadOptionalDataframe (provider.readDataframe tableName tables)
  writeDataframe := MemoryTableProvider.writeDataframe
  has := MemoryTableProvider.has
  list := MemoryTableProvider.list
  openTable := MemoryTableProvider.openTable
  child := MemoryTableProvider.child
  write table dataframe :=
    let written := table.staged.write table.key dataframe
    (written.1, { table with staged := written.2 })
  length table := table.staged.length
  columnNames table := table.staged.columnNames
  close := MemoryTable.close
  abort table := { table with staged := table.staged.abort }
  rows count table :=
    let read := table.staged.rows count
    (read.1, { table with staged := read.2 })
  hasRow table rowId := table.staged.has rowId

end MemoryTables

end GraphLoom.Storage
