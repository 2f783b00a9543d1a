import GraphLoom.Foundation.Directories
import GraphLoom.Storage.Table

/-!
# Objects in files

The objects of a namespace are the files below its directory.  No operation of the file system fails
for another reason than what is there.
-/

namespace GraphLoom.Storage

open Foundation

structure FileStorage where
  root : Path
  nspace : List String
deriving DecidableEq, Repr

/-- `Path::join`. -/
def join (path : Path) (names : List String) : Path := names.reverse ++ path

/-- `Path::strip_prefix`, as the names below the base. -/
def stripBase (base path : Path) : Option (List String) :=
  if base <:+ path then some (path.take (path.length - base.length)).reverse else none

/-- The loop over the entries of one directory, with the stack and the output. -/
def collectEntries (base : Path) (front : String) (isMatch : String → Bool) (fs : FileSystem) :
    List Path → List Path → List String → Except StorageError (List Path × List String)
  | [], stack, output => .ok (stack, output)
  | entry :: entries, stack, output =>
    if fs.isDirectory entry then collectEntries base front isMatch fs entries (entry :: stack) output
    else if fs.isFile entry then
      match stripBase base entry with
      | none =>
        .error (.invalidPath (pathToLogical entry.reverse) "listed file escaped storage root")
      | some relative =>
        let logical := pathToLogical relative
        if startsWith front logical && isMatch logical then
          collectEntries base front isMatch fs entries stack (output ++ [logical])
        else collectEntries base front isMatch fs entries stack output
    else collectEntries base front isMatch fs entries stack output

/-- The loop of `collect_files`, for at most a number of directories.  Only directories are read. -/
def collectFiles (base : Path) (front : String) (isMatch : String → Bool) (fs : FileSystem) :
    ℕ → List Path → List String → Except StorageError (List String)
  | 0, _, output => .ok output
  | _ + 1, [], output => .ok output
  | turns + 1, current :: stack, output =>
    if fs.isDirectory current then
      match collectEntries base front isMatch fs (fs.entries current) stack output with
      | .ok (stack, output) => collectFiles base front isMatch fs turns stack output
      | .error error => .error error
    else .error (.filesystem current .notADirectory)

namespace FileStorage

variable (storage : FileStorage)

def logicalPath (name : String) : Except StorageError Path := do
  let names ← validateLogicalPath name
  .ok (join (join storage.root storage.nspace) names)

/-- What an object is.  The path of the empty name ends with a slash, so that it is no file. -/
def node (name : String) (path : Path) (fs : FileSystem) : Except IoErrorKind Node :=
  match fs.metadata path with
  | .ok (.file bytes) => if name = "" then .error .notADirectory else .ok (.file bytes)
  | found => found

def get (name : String) (fs : FileSystem) : Except StorageError (Option String) := do
  let path ← storage.logicalPath name
  match node name path fs with
  | .ok (.file bytes) => .ok (some bytes)
  | .ok .directory => .error (.filesystem path .isADirectory)
  | .error .notFound => .ok none
  | .error source => .error (.filesystem path source)

def set (name bytes : String) (fs : FileSystem) : Except StorageError Unit × FileSystem :=
  match storage.logicalPath name with
  | .error error => (.error error, fs)
  | .ok path =>
    match FileSystem.createDirAll (fun _ => false) path.tail fs with
    | (.error source, fs) => (.error (.filesystem path.tail source), fs)
    | (.ok (), fs) =>
      if name = "" ∧ fs.isFile path then (.error (.filesystem path .notADirectory), fs)
      else if name = "" ∨ fs.isDirectory path then (.error (.filesystem path .isADirectory), fs)
      else (.ok (), fs.write path bytes)

def delete (name : String) (fs : FileSystem) : Except StorageError Unit × FileSystem :=
  match storage.logicalPath name with
  | .error error => (.error error, fs)
  | .ok path =>
    match node name path fs with
    | .ok (.file _) => (.ok (), fs.erase path)
    | .ok .directory => (.error (.filesystem path .isADirectory), fs)
    | .error .notFound => (.ok (), fs)
    | .error source => (.error (.filesystem path source), fs)

/-- Empty the directory of the namespace, or make it. -/
def clear (fs : FileSystem) : Except StorageError Unit × FileSystem :=
  let root := join storage.root storage.nspace
  match fs.tryExists root with
  | .error source => (.error (.filesystem root source), fs)
  | .ok false =>
    match FileSystem.createDirAll (fun _ => false) root fs with
    | (.error source, fs) => (.error (.filesystem root source), fs)
    | (.ok (), fs) => (.ok (), fs)
  | .ok true =>
    if fs.isDirectory root then (.ok (), (fs.below root).foldl (fun fs path => fs.erase path) fs)
    else (.error (.filesystem root .notADirectory), fs)

def has (name : String) (fs : FileSystem) : Except StorageError Bool := do
  let path ← storage.logicalPath name
  match node name path fs with
  | .ok node => .ok (decide (node ≠ .directory))
  | .error .notFound => .ok false
  | .error source => .error (.filesystem path source)

/-- The files below the directory of the namespace. -/
def listed (front : String) (isMatch : String → Bool) (fs : FileSystem) :
    Except StorageError (List String) :=
  let root := join storage.root storage.nspace
  match fs.tryExists root with
  | .error source => .error (.filesystem root source)
  | .ok false => .ok []
  | .ok true =>
    (collectFiles root front isMatch fs (fs.keys.card + 1) [root] []).map fun names =>
      names.mergeSort (· ≤ ·)

def list (front : String) (fs : FileSystem) : Except StorageError (List String) := do
  let front := pathToLogical (← validateLogicalPath front)
  storage.listed front (fun _ => true) fs

/-- The names of the files that lie in the directory of the namespace. -/
def keys (fs : FileSystem) : Except StorageError (List String) :=
  let root := join storage.root storage.nspace
  match fs.tryExists root with
  | .error source => .error (.filesystem root source)
  | .ok false => .ok []
  | .ok true =>
    if fs.isDirectory root then
      .ok ((((fs.entries root).filter fs.isFile).filterMap List.head?).mergeSort (· ≤ ·))
    else .error (.filesystem root .notADirectory)

def find (isMatch : String → Bool) (fs : FileSystem) : Except StorageError (List String) :=
  storage.listed "" isMatch fs

def child (nspace : Option String) : Except StorageError FileStorage :=
  match nspace with
  | none => .ok storage
  | some nspace => do
    let names ← validateLogicalPath nspace
    .ok { storage with nspace := storage.nspace ++ names }

end FileStorage

end GraphLoom.Storage
