import GraphLoom.Foundation.LinkTree

/-!
# Paths that are safe to write to

Paths are resolved without links, for what is written to, or with links followed, for what it is
compared with.  The file system is a tree with links that does not change; the kernel follows at
most so many of them.
-/

namespace GraphLoom.Project

open Foundation

inductive PathError where
  | io (operation : String) (path : List Component) (source : IoErrorKind)
  | unsafeOutputPath (path : List Component) (message : String)
  | unsafeUpdatePath (path : List Component) (message : String)
deriving DecidableEq, Repr

/-! ### Path buffers -/

abbrev PathBuf := List Component

def PathBuf.isAbsolute (path : PathBuf) : Bool := path.head? = some .rootDir

/-- `PathBuf::push` of a component. -/
def PathBuf.push (path : PathBuf) (component : Component) : PathBuf :=
  if component = .rootDir then [.rootDir] else path ++ [component]

/-- `PathBuf::pop`.  The root stays. -/
def PathBuf.pop (path : PathBuf) : PathBuf :=
  if path.getLast? = some .rootDir then path else path.dropLast

/-- `Path::join`.  A dot counts only in front of a path. -/
def PathBuf.join (path other : PathBuf) : PathBuf :=
  if other.isAbsolute then other
  else if path = [] then other
  else path ++ other.filter (· ≠ .curDir)

def PathBuf.startsWith (path base : PathBuf) : Bool := base.isPrefixOf path

/-- `Path::strip_prefix`. -/
def PathBuf.stripBase (path base : PathBuf) : Option PathBuf :=
  if base.isPrefixOf path then some (path.drop base.length) else none

/-- What the process knows: its directory and its environment.  The names of a location are those of
files. -/
structure Environment where
  currentDir : Except IoErrorKind Path
  var : String → Option String
  names : ∀ directory, currentDir = .ok directory → ∀ name ∈ directory, FileName name

/-! ### Lexical paths -/

def normalizeLoop : PathBuf → List Component → PathBuf
  | normalized, [] => normalized
  | normalized, .curDir :: rest => normalizeLoop normalized rest
  | normalized, .parentDir :: rest => normalizeLoop normalized.pop rest
  | normalized, component :: rest => normalizeLoop (normalized.push component) rest

def normalizePath (path : PathBuf) : PathBuf := normalizeLoop [] path

def pathIsWithinOrEqual (path parent : PathBuf) : Bool := path.startsWith parent

def pathsOverlap (left right : PathBuf) : Bool :=
  pathIsWithinOrEqual left right || pathIsWithinOrEqual right left

variable (env : Environment) (tree : LinkTree) (links : ℕ)

def absoluteUnresolved (path : PathBuf) : Except PathError PathBuf :=
  if path.isAbsolute then .ok path
  else
    match env.currentDir with
    | .error source => .error (.io "get current directory" [.curDir] source)
    | .ok directory => .ok (PathBuf.join (toPath directory) path)

def absoluteLexical (path : PathBuf) : Except PathError PathBuf := do
  .ok (normalizePath (← absoluteUnresolved env path))

/-! ### Resolving -/

structure ResolvedPath where
  lexical : PathBuf
  resolved : PathBuf
deriving DecidableEq, Repr

inductive LinkPolicy where
  | reject
  | follow
deriving DecidableEq, Repr

def isSymlink : Entry → Bool
  | .symlink _ => true
  | _ => false

/-- Whether metadata may be queried, and whether the root has been reached. -/
def componentReachesQueryablePath (component : Component) (reachedRoot : Bool) : Bool × Bool :=
  if component = .rootDir then (true, true) else (reachedRoot, reachedRoot)

def pathComponentIsDirectory (path : PathBuf) (metadata : Entry) (linkPolicy : LinkPolicy) :
    Except PathError Bool :=
  if metadata = .directory then .ok true
  else if linkPolicy = .follow ∧ isSymlink metadata then
    match tree.metadata links path with
    | .ok target => .ok (decide (target = .directory))
    | .error source => .error (.io "inspect resolved path ancestor" path source)
  else .ok false

/-- The loop over the components.  It gives the longest path that exists. -/
def existingLoop (path : PathBuf) (linkPolicy : LinkPolicy) :
    PathBuf → Option PathBuf → Bool → List Component → Except PathError (Option PathBuf)
  | _, existing, _, [] => .ok existing
  | current, existing, reachedRoot, component :: rest =>
    let current := current.push component
    let reaches := componentReachesQueryablePath component reachedRoot
    if ¬ reaches.1 then existingLoop path linkPolicy current existing reaches.2 rest
    else
      match tree.symlinkMetadata links current with
      | .ok metadata =>
        if linkPolicy = .reject ∧ isSymlink metadata then
          .error (.unsafeOutputPath path "path must not contain symlink components")
        else if rest = [] then existingLoop path linkPolicy current (some current) reaches.2 rest
        else
          match pathComponentIsDirectory tree links current metadata linkPolicy with
          | .error error => .error error
          | .ok false => .error (.io "inspect path ancestor" current .notADirectory)
          | .ok true => existingLoop path linkPolicy current (some current) reaches.2 rest
      | .error .notFound => .ok existing
      | .error source => .error (.io "inspect path" current source)

def resolvePathWithExistingAncestor (path : PathBuf) (linkPolicy : LinkPolicy) :
    Except PathError ResolvedPath := do
  let lexical ← absoluteLexical env path
  let existing ← existingLoop tree links path linkPolicy [] none false lexical
  let existing := existing.getD lexical
  let suffix := (lexical.stripBase existing).getD []
  match tree.canonicalize links existing with
  | .error source => .error (.io "canonicalize path ancestor" existing source)
  | .ok ancestor => .ok ⟨lexical, normalizePath (PathBuf.join (toPath ancestor) suffix)⟩

def resolvePathRejectingLinks (path : PathBuf) : Except PathError ResolvedPath :=
  resolvePathWithExistingAncestor env tree links path .reject

def resolvePathFollowingLinks (path : PathBuf) : Except PathError ResolvedPath :=
  resolvePathWithExistingAncestor env tree links path .follow

end GraphLoom.Project
