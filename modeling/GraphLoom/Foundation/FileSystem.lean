import Mathlib.Data.Finmap

/-!
# File systems

A file system maps paths to files and directories.  It is a tree when everything lies in a
directory (`FileSystem.Tree`).  There are no links, and the operations are those of one process.

A path is the list of its names, the innermost first: the tail of a path is its parent, and what
lies below a path has the path as a suffix.
-/

namespace GraphLoom.Foundation

abbrev Path := List String

inductive Node where
  | file (content : String)
  | directory
deriving DecidableEq, Repr

abbrev FileSystem := Finmap fun _ : Path => Node

inductive IoErrorKind where
  | notFound
  | alreadyExists
  | notADirectory
  | isADirectory
  | directoryNotEmpty
  | other
deriving DecidableEq, Repr

namespace FileSystem

/-- The root directory is always there. -/
def isDirectory (fs : FileSystem) (path : Path) : Bool :=
  path = [] || fs.lookup path = some .directory

def isFile (fs : FileSystem) (path : Path) : Bool :=
  path ≠ [] && (fs.lookup path).any fun node => node ≠ .directory

/-- Everything lies in a directory. -/
structure Tree (fs : FileSystem) : Prop where
  parent : ∀ path ≠ [], fs.lookup path ≠ none → fs.isDirectory path.tail

/-- The node at a path.  A file above the path is an error of its own. -/
def metadata (fs : FileSystem) (path : Path) : Except IoErrorKind Node :=
  if path = [] then .ok .directory
  else
    match fs.lookup path with
    | some node => .ok node
    | none => .error (if path.tails.any fs.isFile then .notADirectory else .notFound)

def tryExists (fs : FileSystem) (path : Path) : Except IoErrorKind Bool :=
  match fs.metadata path with
  | .ok _ => .ok true
  | .error .notFound => .ok false
  | .error kind => .error kind

/-- Make a directory and those above it that are missing, the outermost first.  Making a path that
`fails` gives an error; the directories above it have been made then. -/
def createDirAll (fails : Path → Bool) : Path → FileSystem → Except IoErrorKind Unit × FileSystem
  | [], fs => (.ok (), fs)
  | name :: parent, fs =>
    match fs.lookup (name :: parent) with
    | some .directory => (.ok (), fs)
    | some (.file _) => (.error .alreadyExists, fs)
    | none =>
      match createDirAll fails parent fs with
      | (.error kind, fs) => (.error kind, fs)
      | (.ok (), fs) =>
        if fails (name :: parent) then (.error .other, fs)
        else (.ok (), fs.insert (name :: parent) .directory)

/-- Open a file that must not exist. -/
def createNew (fs : FileSystem) (path : Path) : Except IoErrorKind FileSystem :=
  if path = [] ∨ fs.lookup path ≠ none then .error .alreadyExists
  else if fs.isDirectory path.tail then .ok (fs.insert path (.file ""))
  else .error (if path.tails.any fs.isFile then .notADirectory else .notFound)

/-- Write to an open file. -/
def write (fs : FileSystem) (path : Path) (content : String) : FileSystem :=
  fs.insert path (.file content)

def removeFile (fs : FileSystem) (path : Path) : Except IoErrorKind FileSystem :=
  match fs.lookup path with
  | some (.file _) => .ok (fs.erase path)
  | some .directory => .error .isADirectory
  | none => .error .notFound

/-- Something lies in the directory. -/
def hasEntries (fs : FileSystem) (path : Path) : Bool :=
  decide (∃ entry ∈ fs.keys, entry ≠ [] ∧ entry.tail = path)

def removeDir (fs : FileSystem) (path : Path) : Except IoErrorKind FileSystem :=
  match fs.lookup path with
  | some .directory =>
    if fs.hasEntries path then .error .directoryNotEmpty else .ok (fs.erase path)
  | some (.file _) => .error .notADirectory
  | none => .error .notFound

/-- Move a file to a path, and replace the file that is there.  Directories are not moved here: what
is moved has been found to be a file. -/
def rename (fs : FileSystem) (source target : Path) : Except IoErrorKind FileSystem :=
  match fs.lookup source with
  | none => .error .notFound
  | some .directory => .error .isADirectory
  | some (.file content) =>
    if fs.isDirectory target then .error .isADirectory
    else if fs.isDirectory target.tail then
      .ok ((fs.erase source).insert target (.file content))
    else .error .notFound

variable {fs fs' : FileSystem} {path : Path}

/-! ### What the operations find -/

theorem isDirectory_iff : fs.isDirectory path ↔ path = [] ∨ fs.lookup path = some .directory := by
  simp [isDirectory]

theorem isFile_iff :
    fs.isFile path ↔ path ≠ [] ∧ ∃ content, fs.lookup path = some (.file content) := by
  unfold isFile
  cases fs.lookup path with
  | none => simp
  | some node => cases node <;> simp

theorem not_isFile_of_isDirectory (h : fs.isDirectory path) : ¬ fs.isFile path := by
  rw [isFile_iff]
  rintro ⟨hne, content, hfile⟩
  rcases isDirectory_iff.mp h with hnil | hdirectory
  · exact hne hnil
  · rw [hfile] at hdirectory
    cases hdirectory

theorem hasEntries_iff :
    fs.hasEntries path ↔ ∃ entry ≠ [], fs.lookup entry ≠ none ∧ entry.tail = path := by
  unfold hasEntries
  simp only [decide_eq_true_eq, Finmap.mem_keys, ne_eq, Finmap.lookup_eq_none, not_not]
  constructor
  · rintro ⟨entry, hmem, hne, htail⟩
    exact ⟨entry, hne, hmem, htail⟩
  · rintro ⟨entry, hne, hmem, htail⟩
    exact ⟨entry, hmem, hne, htail⟩

/-- Everything above what exists is a directory. -/
theorem Tree.above (h : fs.Tree) {above : Path} (hpath : fs.lookup path ≠ none)
    (habove : above <:+ path) (hne : above ≠ path) : fs.isDirectory above := by
  induction path with
  | nil => exact absurd (List.eq_nil_of_suffix_nil habove) hne
  | cons name parent ih =>
    have hparent : fs.isDirectory parent := h.parent _ (List.cons_ne_nil _ _) hpath
    rcases List.suffix_cons_iff.mp habove with heq | habove
    · exact absurd heq hne
    by_cases hsame : above = parent
    · rwa [hsame]
    rcases isDirectory_iff.mp hparent with rfl | hparent
    · rw [List.eq_nil_of_suffix_nil habove]
      rfl
    · exact ih (by rw [hparent]; exact Option.some_ne_none _) habove hsame

/-- Nothing lies below what is missing. -/
theorem Tree.below_none (h : fs.Tree) {below : Path} (hpath : fs.lookup path = none)
    (hne : path ≠ []) (hbelow : path <:+ below) : fs.lookup below = none := by
  by_contra hsome
  by_cases hsame : path = below
  · rw [hsame] at hpath
    exact hsome hpath
  · rcases isDirectory_iff.mp (h.above hsome hbelow hsame) with hnil | hdirectory
    · exact hne hnil
    · rw [hpath] at hdirectory
      cases hdirectory

/-! ### Moving files -/

/-- Moving a file is possible when its new directory is there and nothing has the new path. -/
theorem rename_eq_ok {source target : Path} {content : String}
    (hsource : fs.lookup source = some (.file content)) (htarget : target ≠ [])
    (hdirectory : fs.lookup target ≠ some .directory) (hparent : fs.isDirectory target.tail) :
    fs.rename source target = .ok ((fs.erase source).insert target (.file content)) := by
  have hnot : fs.isDirectory target = false := by
    rw [Bool.eq_false_iff]
    intro h
    rcases isDirectory_iff.mp h with h | h
    · exact htarget h
    · exact hdirectory h
  unfold rename
  rw [hsource]
  dsimp only
  rw [hnot, hparent]
  rfl

/-- Directories stay when a file is moved to a path that nothing has. -/
theorem isDirectory_move {source target path : Path} {content : String}
    (hsource : fs.lookup source = some (.file content)) (hfresh : fs.lookup target = none)
    (hpath : fs.isDirectory path) :
    isDirectory ((fs.erase source).insert target (.file content)) path := by
  rcases isDirectory_iff.mp hpath with rfl | hdirectory
  · rfl
  rw [isDirectory_iff]
  right
  rw [Finmap.lookup_insert_of_ne, Finmap.lookup_erase_ne]
  · exact hdirectory
  · rintro rfl
    rw [hsource] at hdirectory
    cases hdirectory
  · rintro rfl
    rw [hfresh] at hdirectory
    cases hdirectory

/-- A file that was moved to a path that nothing had can be moved back. -/
theorem rename_back {source target : Path} {content : String}
    (hsource : fs.lookup source = some (.file content)) (hfresh : fs.lookup target = none)
    (hne : source ≠ []) (hparent : fs.isDirectory source.tail) :
    rename ((fs.erase source).insert target (.file content)) target source = .ok fs := by
  have hdiffer : source ≠ target := by
    rintro rfl
    rw [hsource] at hfresh
    cases hfresh
  have hgone : ((fs.erase source).insert target (.file content)).lookup source = none := by
    rw [Finmap.lookup_insert_of_ne _ hdiffer, Finmap.lookup_erase]
  rw [rename_eq_ok (Finmap.lookup_insert _) hne (by rw [hgone]; simp)
    (isDirectory_move hsource hfresh hparent)]
  refine congrArg _ (Finmap.ext_lookup fun path => ?_)
  by_cases hpath : path = source
  · rw [hpath, Finmap.lookup_insert, hsource]
  · rw [Finmap.lookup_insert_of_ne _ hpath]
    by_cases hpath' : path = target
    · rw [hpath', Finmap.lookup_erase, hfresh]
    · rw [Finmap.lookup_erase_ne hpath', Finmap.lookup_insert_of_ne _ hpath',
        Finmap.lookup_erase_ne hpath]

end FileSystem

end GraphLoom.Foundation
