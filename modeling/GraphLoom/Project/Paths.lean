import GraphLoom.Project.PathSafety

/-!
# The paths of a project

The paths of a configuration are resolved against the root of the project, and those that are
written to are checked against the rest.
-/

namespace GraphLoom.Project

open Foundation

/-- The paths of a configuration. -/
structure PathConfig where
  input : String
  output : String
  updateOutput : String
  cache : String
  reporting : String
  vectorDbUri : String

structure ProjectPaths where
  root : PathBuf
  inputDir : PathBuf
  outputDir : PathBuf
  updateOutputDir : PathBuf
  cacheDir : PathBuf
  reportingDir : PathBuf
  vectorDbUri : PathBuf
deriving DecidableEq, Repr

variable (env : Environment) (tree : LinkTree) (links : ℕ)

/-! ### The home directory -/

def nonEmpty (name : String) : Option String := (env.var name).filter (· ≠ "")

/-- `PathBuf::push` of a path, as text. -/
def pushText (path other : String) : String :=
  if isAbsolute other then other
  else if path = "" ∨ path.toList.getLast? = some '/' then path ++ other
  else path ++ "/" ++ other

/-- The home directory as the environment has it. -/
def homeVar : Option String :=
  match nonEmpty env "HOME" with
  | some home => some home
  | none =>
    match nonEmpty env "USERPROFILE" with
    | some userprofile => some userprofile
    | none => do
      let homedrive ← nonEmpty env "HOMEDRIVE"
      let homepath ← nonEmpty env "HOMEPATH"
      some (pushText homedrive homepath)

def userHomeDir : Option PathBuf := (homeVar env).map fun home => normalizePath (components home)

/-! ### Resolving a configuration -/

def resolvePath (root : PathBuf) (value : String) : PathBuf :=
  let path := components value
  if PathBuf.isAbsolute path then normalizePath path else normalizePath (root.join path)

def isFilesystemRoot (path : PathBuf) : Bool := path = [] ∨ path = [.rootDir]

/-- A path that exists is resolved as the kernel does, from its text. -/
def absoluteNormalized (path : String) : Except PathError PathBuf :=
  let canonical (kernel : List Component) (lexical : PathBuf) : PathBuf :=
    match tree.canonicalize links kernel with
    | .ok location => toPath location
    | .error _ => normalizePath lexical
  if isAbsolute path then .ok (canonical (kernelComponents path) (components path))
  else
    match env.currentDir with
    | .error source => .error (.io "get current directory" [.curDir] source)
    | .ok directory => .ok (canonical (toPath directory ++ kernelComponents path)
        (PathBuf.join (toPath directory) (components path)))

/-! ### Checks -/

/-- `unsafe_output` or `unsafe_update` of a path. -/
abbrev Unsafe := String → PathError

/-- The loop over labelled paths. -/
def rejectOverlaps (unsafePath : Unsafe) (subject : String) (target : PathBuf) :
    List (PathBuf × String) → Except PathError Unit
  | [] => .ok ()
  | (path, label) :: rest =>
    if pathsOverlap target path then
      .error (unsafePath (subject ++ " must not overlap " ++ label ++ " directory"))
    else rejectOverlaps unsafePath subject target rest

def rejectAncestor (unsafePath : Unsafe) (message : String) (target path : PathBuf) :
    Except PathError Unit :=
  if target = path ∨ path.startsWith target then .error (unsafePath message) else .ok ()

def rejectFilesystemRoot (unsafePath : Unsafe) (message : String) (target : PathBuf) :
    Except PathError Unit :=
  if isFilesystemRoot target then .error (unsafePath message) else .ok ()

def rejectHome (unsafePath : Unsafe) (message : String) (target : PathBuf) (home : Option PathBuf) :
    Except PathError Unit :=
  match home with
  | none => .ok ()
  | some home => do
    let home ← resolvePathFollowingLinks env tree links home
    rejectAncestor unsafePath message target home.resolved

namespace ProjectPaths

variable (paths : ProjectPaths)

def validateOutputPathSafetyWithHome (home : Option PathBuf) : Except PathError Unit := do
  let output ← resolvePathRejectingLinks env tree links paths.outputDir
  let root ← resolvePathFollowingLinks env tree links paths.root
  let input ← resolvePathFollowingLinks env tree links paths.inputDir
  let cache ← resolvePathFollowingLinks env tree links paths.cacheDir
  let reporting ← resolvePathFollowingLinks env tree links paths.reportingDir
  let unsafeOutput := PathError.unsafeOutputPath paths.outputDir
  rejectAncestor unsafeOutput
    "output directory must not be project root or an ancestor of project root"
    output.resolved root.resolved
  rejectOverlaps unsafeOutput "output directory" output.resolved
    [(input.resolved, "input"), (cache.resolved, "cache"), (reporting.resolved, "logs")]
  rejectFilesystemRoot unsafeOutput "output directory must not be filesystem root" output.resolved
  rejectHome env tree links unsafeOutput
    "output directory must not be home directory or an ancestor of home directory"
    output.resolved home

def validateUpdateOutputPathSafetyWithHome (home : Option PathBuf) : Except PathError Unit := do
  let update ← resolvePathRejectingLinks env tree links paths.updateOutputDir
  let root ← resolvePathFollowingLinks env tree links paths.root
  let input ← resolvePathFollowingLinks env tree links paths.inputDir
  let output ← resolvePathRejectingLinks env tree links paths.outputDir
  let cache ← resolvePathFollowingLinks env tree links paths.cacheDir
  let reporting ← resolvePathFollowingLinks env tree links paths.reportingDir
  let vector ← resolvePathRejectingLinks env tree links paths.vectorDbUri
  let unsafeUpdate := PathError.unsafeUpdatePath paths.updateOutputDir
  rejectAncestor unsafeUpdate
    "update output must not be project root or an ancestor of project root"
    update.resolved root.resolved
  rejectOverlaps unsafeUpdate "update output" update.resolved
    [(input.resolved, "input"), (output.resolved, "output"), (cache.resolved, "cache"),
      (reporting.resolved, "logs"), (vector.resolved, "vector DB")]
  rejectFilesystemRoot unsafeUpdate "update output must not be filesystem root" update.resolved
  rejectHome env tree links unsafeUpdate
    "update output must not be home directory or an ancestor of home directory"
    update.resolved home

def validateVectorPathSafetyWithHome (home : Option PathBuf) : Except PathError Unit := do
  let vector ← resolvePathRejectingLinks env tree links paths.vectorDbUri
  let root ← resolvePathFollowingLinks env tree links paths.root
  let output ← resolvePathRejectingLinks env tree links paths.outputDir
  let input ← resolvePathFollowingLinks env tree links paths.inputDir
  let cache ← resolvePathFollowingLinks env tree links paths.cacheDir
  let reporting ← resolvePathFollowingLinks env tree links paths.reportingDir
  let unsafeVector := PathError.unsafeOutputPath paths.vectorDbUri
  rejectFilesystemRoot unsafeVector "vector DB path must not be filesystem root" vector.resolved
  rejectAncestor unsafeVector
    "vector DB path must not be project root or an ancestor of project root"
    vector.resolved root.resolved
  rejectAncestor unsafeVector "vector DB path must not equal output or be an ancestor of output"
    vector.resolved output.resolved
  rejectOverlaps unsafeVector "vector DB path" vector.resolved
    [(input.resolved, "input"), (cache.resolved, "cache"), (reporting.resolved, "logs")]
  rejectHome env tree links unsafeVector
    "vector DB path must not be home directory or an ancestor of home directory"
    vector.resolved home

def validateOutputPathSafety : Except PathError Unit :=
  paths.validateOutputPathSafetyWithHome env tree links (userHomeDir env)

def validateUpdateOutputPathSafety : Except PathError Unit :=
  paths.validateUpdateOutputPathSafetyWithHome env tree links (userHomeDir env)

def validateVectorPathSafety : Except PathError Unit :=
  paths.validateVectorPathSafetyWithHome env tree links (userHomeDir env)

def resolve (root : String) (config : PathConfig) : Except PathError ProjectPaths := do
  let root ← absoluteNormalized env tree links root
  let paths : ProjectPaths :=
    { root
      inputDir := resolvePath root config.input
      outputDir := resolvePath root config.output
      updateOutputDir := resolvePath root config.updateOutput
      cacheDir := resolvePath root config.cache
      reportingDir := resolvePath root config.reporting
      vectorDbUri := resolvePath root config.vectorDbUri }
  paths.validateOutputPathSafety env tree links
  .ok paths

end ProjectPaths

end GraphLoom.Project
