import GraphLoom.Storage.File

/-!
# Tables in Parquet files

Each table is an object of the storage.
-/

namespace GraphLoom.Storage

open DataFrame Foundation

structure ParquetTableProvider where
  storage : FileStorage
deriving DecidableEq, Repr

structure ParquetTable (δ : Type) where
  storage : FileStorage
  object : String
  staged : StagedTable δ

variable {δ ν : Type} [DataFrame δ ν]

def readParquetDataframe (bytes : String) : Except StorageError δ :=
  (finishRead bytes).mapError .polars

def writeParquetDataframe (dataframe : δ) : Except StorageError String :=
  (finishWrite dataframe).mapError .polars

def tableObject (tableName : String) : Except StorageError String := do
  .ok ((← validateTableName tableName) ++ ".parquet")

namespace ParquetTableProvider

variable (provider : ParquetTableProvider)

def readOptional (tableName : String) (fs : FileSystem) : Except StorageError (Option δ) := do
  let object ← tableObject tableName
  match ← provider.storage.get object fs with
  | none => .ok none
  | some bytes => (readParquetDataframe bytes).map some

def readDataframe (tableName : String) (fs : FileSystem) : Except StorageError δ := do
  match ← provider.readOptional tableName fs with
  | some dataframe => .ok dataframe
  | none => .error (.missingTable tableName)

def writeDataframe (tableName : String) (dataframe : δ) (fs : FileSystem) :
    Except StorageError Unit × FileSystem :=
  match tableObject tableName with
  | .error error => (.error error, fs)
  | .ok object =>
    match writeParquetDataframe dataframe with
    | .error error => (.error error, fs)
    | .ok bytes => provider.storage.set object bytes fs

def has (tableName : String) (fs : FileSystem) : Except StorageError Bool := do
  provider.storage.has (← tableObject tableName) fs

/-- The table that a key is listed as. -/
def listed (key : String) : Option String :=
  (stripSuffix ".parquet" key).filter fun table => !table.toList.contains '/'

/-- The pattern of the keys is `\.parquet$`. -/
def list (fs : FileSystem) : Except StorageError (List String) := do
  let keys ← provider.storage.find (fun key => endsWith ".parquet" key) fs
  .ok ((keys.filterMap listed).mergeSort (· ≤ ·))

def openTable (tableName : String) (truncate : Bool) (fs : FileSystem) :
    Except StorageError (ParquetTable δ) := do
  let object ← tableObject tableName
  let existing ← if truncate then .ok none else provider.readOptional tableName fs
  .ok ⟨provider.storage, object, .opened existing truncate⟩

def child (nspace : Option String) : Except StorageError ParquetTableProvider := do
  .ok ⟨← provider.storage.child nspace⟩

end ParquetTableProvider

/-- What is there now, when a table is closed that is appended to. -/
def ParquetTable.current (table : ParquetTable δ) (fs : FileSystem) :
    Except StorageError (Option δ) := do
  if table.staged.truncate then .ok none
  else
    match ← table.storage.get table.object fs with
    | none => .ok none
    | some bytes => (readParquetDataframe bytes).map some

def ParquetTable.close (table : ParquetTable δ) (fs : FileSystem) :
    Except StorageError Unit × ParquetTable δ × FileSystem :=
  match table.staged.checkOpen table.object with
  | .error error => (.error error, table, fs)
  | .ok () =>
    let closed : ParquetTable δ := { table with staged := { table.staged with closed := true } }
    if table.staged.nothingStaged then (.ok (), closed, fs)
    else
      let bytes : Except StorageError String := do
        let existing ← table.current fs
        let dataframe ← appendOptionalDataframe existing table.staged.pending
        writeParquetDataframe dataframe
      match bytes with
      | .error error => (.error error, table, fs)
      | .ok bytes =>
        match table.storage.set table.object bytes fs with
        | (.error error, fs) => (.error error, table, fs)
        | (.ok (), fs) => (.ok (), closed, fs)

def parquetProvider : TableProvider FileSystem ParquetTableProvider (ParquetTable δ) δ ν where
  readDataframe := ParquetTableProvider.readDataframe
  readOptionalDataframe := ParquetTableProvider.readOptional
  writeDataframe := ParquetTableProvider.writeDataframe
  has := ParquetTableProvider.has
  list := ParquetTableProvider.list
  openTable := ParquetTableProvider.openTable
  child := ParquetTableProvider.child
  write table dataframe :=
    let written := table.staged.write table.object dataframe
    (written.1, { table with staged := written.2 })
  length table := table.staged.length
  columnNames table := table.staged.columnNames
  close := ParquetTable.close
  abort table := { table with staged := table.staged.abort }
  rows count table :=
    let read := table.staged.rows count
    (read.1, { table with staged := read.2 })
  hasRow table rowId := table.staged.has rowId

end GraphLoom.Storage
