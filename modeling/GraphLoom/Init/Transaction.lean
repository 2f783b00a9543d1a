import GraphLoom.Foundation.FileSystem

/-!
# Publication of initialized project files

A plan lists the directories and the files of a project.  Its directories are made and its files
staged beside their targets; then the files are published one after another, with a backup of what
was there.  When a step fails, what was done before it is undone.

One step of a call may fail without a reason in the file system: the step that `fault` names.
-/

namespace GraphLoom.Init

open Foundation

inductive CliError where
  | io (operation : String) (path : Path) (source : IoErrorKind)
  | invalidRoot (path : Path) (message : String)
  | rollbackFailed (operation : String) (source rollback : CliError)
deriving DecidableEq, Repr

structure ManagedFilePlan where
  path : Path
  content : String
  overwrite : Bool
deriving DecidableEq, Repr

structure InitPlan where
  directories : List Path
  files : List ManagedFilePlan
deriving DecidableEq, Repr

structure StagedManagedFile where
  target : Path
  staged : Path
deriving DecidableEq, Repr

structure PublishedManagedFile where
  target : Path
  backup : Option Path
deriving DecidableEq, Repr

/-- The steps that can fail.  Directories and files are counted as in the plan until the files are
staged, and the files as in the list of staged ones from then on. -/
inductive Step where
  | checkDirectory (index : ℕ)
  -- the making of one of the directories that the directory with the index needs
  | createDirectory (index : ℕ) (path : Path)
  | checkFile (index : ℕ)
  | createStaged (index : ℕ)
  -- a part of the content has been written
  | writeStaged (index : ℕ) (written : String)
  | syncStaged (index : ℕ)
  | checkTarget (index : ℕ)
  | backup (index : ℕ)
  -- the error of the hook
  | beforePublish (index : ℕ) (operation : String)
  | publish (index : ℕ)
deriving DecidableEq, Repr

/-- The uses of a UUID: for a staged file and for a backup. -/
inductive Temporary where
  | staged (index : ℕ)
  | backup (index : ℕ)
deriving DecidableEq, Repr

variable (fault : Option Step) (uuid : Temporary → String)

/-! ### Plans -/

/-- The plan of a project, from the contents of its files and the names and contents of its
prompts. -/
def InitPlan.build (root : Path) (settings dotenv : String) (prompts : List (String × String))
    (force : Bool) : InitPlan where
  directories := [root, "input" :: root, "prompts" :: root]
  files :=
    [⟨"settings.yaml" :: root, settings, true⟩, ⟨".env" :: root, dotenv, force⟩] ++
      prompts.map fun prompt => ⟨prompt.1 :: "prompts" :: root, prompt.2, force⟩

/-! ### Preflight -/

/-- The plan refuses directories that are files. -/
def preflightDirectory (fs : FileSystem) (path : Path) : Except CliError Unit :=
  match fs.metadata path with
  | .ok .directory => .ok ()
  | .ok (.file _) => .error (.invalidRoot path "expected directory path")
  | .error .notFound => .ok ()
  | .error source => .error (.io "stat directory" path source)

/-- The plan refuses files that are directories. -/
def preflightManagedFile (fs : FileSystem) (file : ManagedFilePlan) : Except CliError Unit :=
  match fs.metadata file.path with
  | .ok (.file _) => .ok ()
  | .ok .directory =>
    .error (.invalidRoot file.path "refusing to overwrite non-file managed path")
  | .error .notFound => .ok ()
  | .error source => .error (.io "stat managed file" file.path source)

def InitPlan.preflight (plan : InitPlan) (fs : FileSystem) : Except CliError Unit := do
  plan.directories.forM (preflightDirectory fs)
  plan.files.forM (preflightManagedFile fs)

/-! ### Steps -/

/-- The result of a step, unless it is the one that fails. -/
def attempt {α : Type} (step : Step) (operation : String) (path : Path)
    (result : Except IoErrorKind α) : Except CliError α :=
  if fault = some step then .error (.io operation path .other)
  else result.mapError (.io operation path)

def temporarySibling (path : Path) (temporary : Temporary) (kind : String) : Except CliError Path :=
  match path with
  | [] => .error (.invalidRoot path "managed path has no parent")
  | name :: parent => .ok (("." ++ name ++ "." ++ uuid temporary ++ "." ++ kind) :: parent)

/-! ### Cleaning up -/

def cleanupTmp (path : Path) (fs : FileSystem) : FileSystem :=
  match fs.removeFile path with
  | .ok fs => fs
  | .error _ => fs

def cleanupStaged (files : List StagedManagedFile) (fs : FileSystem) : FileSystem :=
  files.foldl (fun fs file => cleanupTmp file.staged fs) fs

def removeEmptyDirectories (directories : List Path) (fs : FileSystem) : FileSystem :=
  directories.reverse.foldl (fun fs directory =>
    match fs.removeDir directory with
    | .ok fs => fs
    | .error _ => fs) fs

def removeBackups (files : List PublishedManagedFile) (fs : FileSystem) : FileSystem :=
  files.foldl (fun fs file =>
    match file.backup with
    | some backup => cleanupTmp backup fs
    | none => fs) fs

def restoreBackup (target : Path) (backup : Option Path) (fs : FileSystem) :
    Except CliError Unit × FileSystem :=
  match backup with
  | none => (.ok (), fs)
  | some backup =>
    match fs.rename backup target with
    | .ok fs => (.ok (), fs)
    | .error source => (.error (.io "restore managed file backup" target source), fs)

/-- The first of two results that is an error. -/
def firstError (first second : Except CliError Unit) : Except CliError Unit :=
  match first with
  | .error error => .error error
  | .ok () => second

/-- Remove a published file, and put back what was there. -/
def unpublish (file : PublishedManagedFile) (fs : FileSystem) :
    Except CliError Unit × FileSystem :=
  match fs.removeFile file.target with
  | .ok fs => restoreBackup file.target file.backup fs
  | .error .notFound => restoreBackup file.target file.backup fs
  | .error source =>
    let removed := CliError.io "remove published managed file during rollback" file.target source
    let restored := restoreBackup file.target file.backup fs
    (.error removed, restored.2)

def rollbackPublished (files : List PublishedManagedFile) (fs : FileSystem) :
    Except CliError Unit × FileSystem :=
  files.reverse.foldl (fun state file =>
    let undone := unpublish file state.2
    (firstError state.1 undone.1, undone.2)) (.ok (), fs)

def withRollback (operation : String) (source : CliError) (rollback : Except CliError Unit) :
    CliError :=
  match rollback with
  | .ok () => source
  | .error rollback => .rollbackFailed operation source rollback

/-! ### Directories -/

def addMissing (fs : FileSystem) (missing : List Path) (entry : Path × ℕ) :
    Except CliError (List Path) := do
  let found ← attempt fault (.checkDirectory entry.2) "check initialization directory" entry.1
    (fs.tryExists entry.1)
  .ok (if found then missing else missing ++ [entry.1])

def missingDirectories (directories : List Path) (fs : FileSystem) : Except CliError (List Path) :=
  directories.zipIdx.foldlM (addMissing fault fs) []

def createDirectories : List (Path × ℕ) → FileSystem → Except CliError Unit × FileSystem
  | [], fs => (.ok (), fs)
  | (directory, index) :: rest, fs =>
    match FileSystem.createDirAll (fun path => fault = some (.createDirectory index path))
        directory fs with
    | (.error source, fs) => (.error (.io "create directory" directory source), fs)
    | (.ok (), fs) => createDirectories rest fs

/-! ### Staging -/

/-- Write the content of a staged file that has been opened. -/
def writeContent (index : ℕ) (path : Path) (content : String) (fs : FileSystem) :
    Except CliError Unit × FileSystem :=
  match fault with
  | some (.writeStaged faulty written) =>
    if faulty = index then
      (.error (.io "write staged managed file" path .other), fs.write path written)
    else (.ok (), fs.write path content)
  | _ => (.ok (), fs.write path content)

def writeStagedFile (index : ℕ) (path : Path) (content : String) (fs : FileSystem) :
    Except CliError Unit × FileSystem :=
  match attempt fault (.createStaged index) "create staged managed file" path (fs.createNew path) with
  | .error error => (.error error, fs)
  | .ok fs =>
    match writeContent fault index path content fs with
    | (.error error, fs) => (.error error, cleanupTmp path fs)
    | (.ok (), fs) =>
      match attempt fault (.syncStaged index) "sync staged managed file" path (.ok ()) with
      | .error error => (.error error, cleanupTmp path fs)
      | .ok () => (.ok (), fs)

def stageManagedFiles : List (ManagedFilePlan × ℕ) → List StagedManagedFile → FileSystem →
    Except CliError (List StagedManagedFile) × FileSystem
  | [], staged, fs => (.ok staged, fs)
  | (file, index) :: files, staged, fs =>
    match attempt fault (.checkFile index) "check managed file" file.path
        (fs.tryExists file.path) with
    -- the files that have been staged before it stay
    | .error error => (.error error, fs)
    | .ok found =>
      if found && !file.overwrite then stageManagedFiles files staged fs
      else
        match temporarySibling uuid file.path (.staged index) "tmp" with
        | .error error => (.error error, fs)
        | .ok stagedPath =>
          match writeStagedFile fault index stagedPath file.content fs with
          | (.error error, fs) => (.error error, cleanupStaged staged fs)
          | (.ok (), fs) => stageManagedFiles files (staged ++ [⟨file.path, stagedPath⟩]) fs

/-! ### Publishing -/

def moveTargetToBackup (index : ℕ) (target : Path) (fs : FileSystem) :
    Except CliError (Option Path) × FileSystem :=
  match attempt fault (.checkTarget index) "check managed file before publish" target
      (fs.tryExists target) with
  | .error error => (.error error, fs)
  | .ok false => (.ok none, fs)
  | .ok true =>
    match temporarySibling uuid target (.backup index) "backup" with
    | .error error => (.error error, fs)
    | .ok backup =>
      match attempt fault (.backup index) "backup managed file" target (fs.rename target backup) with
      | .error error => (.error error, fs)
      | .ok fs => (.ok (some backup), fs)

/-- The hook that is called before a file is published. -/
def beforePublish (index : ℕ) (target : Path) : Except CliError Unit :=
  match fault with
  | some (.beforePublish faulty operation) =>
    if faulty = index then .error (.io operation target .other) else .ok ()
  | _ => .ok ()

/-- Undo what was done before the step that failed with `error`; the file that was being published
is restored from its backup. -/
def rollback (staged : List StagedManagedFile) (created : List Path)
    (published : List PublishedManagedFile) (current : Path × Option Path) (error : CliError)
    (fs : FileSystem) : Except CliError Unit × FileSystem :=
  let currentRollback := restoreBackup current.1 current.2 fs
  let previousRollback := rollbackPublished published currentRollback.2
  let fs := removeEmptyDirectories created (cleanupStaged staged previousRollback.2)
  (.error (withRollback "publish initialized project" error
    (firstError currentRollback.1 previousRollback.1)), fs)

def publishFiles (staged : List StagedManagedFile) (created : List Path) :
    List (StagedManagedFile × ℕ) → List PublishedManagedFile → FileSystem →
    Except CliError Unit × FileSystem
  | [], published, fs => (.ok (), removeBackups published fs)
  | (file, index) :: files, published, fs =>
    match moveTargetToBackup fault uuid index file.target fs with
    -- nothing of this file has to be restored
    | (.error error, fs) => rollback staged created published (file.target, none) error fs
    | (.ok backup, fs) =>
      match beforePublish fault index file.target with
      | .error error => rollback staged created published (file.target, backup) error fs
      | .ok () =>
        match attempt fault (.publish index) "publish managed file" file.target
            (fs.rename file.staged file.target) with
        | .error error => rollback staged created published (file.target, backup) error fs
        | .ok fs => publishFiles staged created files (published ++ [⟨file.target, backup⟩]) fs

/-! ### The transaction -/

/-- What is left to do once the directories have been made. -/
def stageAndPublish (plan : InitPlan) (created : List Path) (fs : FileSystem) :
    Except CliError Unit × FileSystem :=
  match stageManagedFiles fault uuid plan.files.zipIdx [] fs with
  | (.error error, fs) => (.error error, removeEmptyDirectories created fs)
  | (.ok staged, fs) => publishFiles fault uuid staged created staged.zipIdx [] fs

/-- `execute_plan_with_hook`. -/
def executePlan (plan : InitPlan) (fs : FileSystem) : Except CliError Unit × FileSystem :=
  match missingDirectories fault plan.directories fs with
  | .error error => (.error error, fs)
  | .ok created =>
    match createDirectories fault plan.directories.zipIdx fs with
    | (.error error, fs) => (.error error, removeEmptyDirectories created fs)
    | (.ok (), fs) => stageAndPublish fault uuid plan created fs

end GraphLoom.Init
