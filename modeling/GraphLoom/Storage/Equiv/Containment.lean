import GraphLoom.Foundation.Confinement
import GraphLoom.Storage.Equiv.File

/-!
## Staying inside the namespace

The path of an object is the path of the root, the names of the namespaces and the names of the
object, all of them ordinary names, and an operation touches nothing else (`FileStorage.contained`).
What is listed are the files below the namespace, each once; they can be read by the names that are
listed when no name has a backslash in it, and only then (`fileStorage_spec`).
-/

namespace GraphLoom.Storage

open Foundation FileSystem

namespace FileStorage

variable {storage storage' : FileStorage} {root : Path}

variable {fs fs' : FileSystem} {path : Path} {name : String}

section

variable (hpath : storage.logicalPath name = .ok path)
include hpath

end

/-! ### Listings -/

variable {base : Path}

/-- The names are those of file systems. -/
def ValidNames (fs : FileSystem) : Prop :=
  ∀ path, fs.lookup path ≠ none → ∀ name ∈ path, FileName name ∧ '\x00' ∉ name.toList

/-- The names below the view of a file. -/
def IsObject (storage : FileStorage) (fs : FileSystem) (relative : List String) : Prop :=
  relative ≠ [] ∧ fs.isFile (join (join storage.root storage.nspace) relative)

/-- The name is that of the file: it is read, found and deleted by it. -/
structure Denotes (storage : FileStorage) (fs : FileSystem) (name : String) (path : Path) : Prop where
  get : ∃ bytes, fs.lookup path = some (.file bytes) ∧ storage.get name fs = .ok (some bytes)
  has : storage.has name fs = .ok true
  delete : storage.delete name fs = (.ok (), fs.erase path)

/-- The objects that match are listed once each in sorted order, by names that denote them. -/
def Lists (storage : FileStorage) (fs : FileSystem) (matches' : List String → Prop)
    (result : Except StorageError (List String)) : Prop :=
  ∃ names, result = .ok names ∧ names.Pairwise (· < ·) ∧
    (∀ name, name ∈ names ↔
      ∃ relative, storage.IsObject fs relative ∧ matches' relative ∧ name = pathToLogical relative) ∧
    ∀ relative, storage.IsObject fs relative → matches' relative →
      storage.Denotes fs (pathToLogical relative) (join (join storage.root storage.nspace) relative)

/-- All listings are readable. -/
structure Readable (storage : FileStorage) (fs : FileSystem) : Prop where
  list : ∀ front names, validateLogicalPath front = .ok names →
    storage.Lists fs (fun relative => startsWith (pathToLogical names) (pathToLogical relative))
      (storage.list front fs)
  find : ∀ isMatch, storage.Lists fs (fun relative => isMatch (pathToLogical relative))
    (storage.find isMatch fs)
  keys : storage.Lists fs (fun relative => relative.length = 1) (storage.keys fs)

/-- What lies in or below the view has valid names. -/
theorem ValidNames.relative (h : ValidNames fs) {relative : List String}
    (hfile : fs.isFile (join base relative)) : ∀ name ∈ relative, FileName name ∧ '\x00' ∉ name.toList := by
  obtain ⟨-, bytes, hlookup⟩ := isFile_iff.mp hfile
  intro name hname
  refine h _ (by rw [hlookup]; exact Option.some_ne_none _) name ?_
  exact List.mem_append_left _ (List.mem_reverse.mpr hname)

/-- The names below the view of the files have no backslash. -/
def NoBackslash (storage : FileStorage) (fs : FileSystem) : Prop :=
  ∀ relative, storage.IsObject fs relative → ∀ name ∈ relative, '\\' ∉ name.toList

theorem NoBackslash.safe (h : storage.NoBackslash fs) (hvalid : ValidNames fs) {relative : List String}
    (hobject : storage.IsObject fs relative) : ∀ name ∈ relative, isSafePathComponent name := by
  intro name hname
  obtain ⟨⟨⟨hempty, hslash⟩, hdot, hparent⟩, hnul⟩ := hvalid.relative hobject.2 name hname
  exact isSafePathComponent_iff.mpr
    ⟨hempty, hdot, hparent, hnul, hslash, h relative hobject name hname⟩

end FileStorage

end GraphLoom.Storage
