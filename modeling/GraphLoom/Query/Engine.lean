import GraphLoom.Foundation.OnceCells
import GraphLoom.Query.Runtime

/-!
# The query engine

An engine keeps the runtimes that it has assembled by the directory of the data, the level of
communities and the mode of the selection.  A request takes the runtime of its key, or assembles it
without what belongs to the request alone, and puts its own callbacks into its copy.  The data of a
request whose directory cannot be resolved are not kept.
-/

namespace GraphLoom.Query

open Foundation

inductive QueryDataRootKey where
  | canonical (path : Path)
  | unresolved (path : List Component)
deriving DecidableEq, Repr

structure QueryResourceKey where
  dataRoot : QueryDataRootKey
  communityLevel : ℤ
  dynamicCommunitySelection : Bool
deriving DecidableEq, Repr

def QueryResourceKey.isCacheable (key : QueryResourceKey) : Bool :=
  match key.dataRoot with
  | .canonical _ => true
  | .unresolved _ => false

/-- The runtime of a method. -/
inductive QueryRuntime (B : Backend) where
  | basic (runtime : BasicQueryRuntime B)
  | local (runtime : LocalQueryRuntime B)
  | global (runtime : GlobalQueryRuntime B)
  | drift (runtime : DriftQueryRuntime B)

namespace QueryRuntime

variable {B : Backend}

def callbacks : QueryRuntime B → List B.Callback
  | .basic runtime => runtime.callbacks
  | .local runtime => runtime.callbacks
  | .global runtime => runtime.callbacks
  | .drift runtime => runtime.callbacks

def withCallbacks (callbacks : List B.Callback) : QueryRuntime B → QueryRuntime B
  | .basic runtime => .basic { runtime with callbacks := callbacks }
  | .local runtime => .local { runtime with callbacks := callbacks }
  | .global runtime => .global { runtime with callbacks := callbacks }
  | .drift runtime => .drift { runtime with callbacks := callbacks }

@[simp]
theorem callbacks_withCallbacks (callbacks : List B.Callback) (runtime : QueryRuntime B) :
    (runtime.withCallbacks callbacks).callbacks = callbacks := by
  cases runtime <;> rfl

@[simp]
theorem withCallbacks_withCallbacks (callbacks callbacks' : List B.Callback)
    (runtime : QueryRuntime B) :
    (runtime.withCallbacks callbacks).withCallbacks callbacks' =
      runtime.withCallbacks callbacks' := by
  cases runtime <;> rfl

end QueryRuntime

/-- What is fixed of an engine: its project and the files. -/
structure QueryEngine (B : Backend) where
  project : LoadedProject B
  files : IndexFiles B

/-- How a request gets its runtime. -/
abbrev RuntimeJob (B : Backend) :=
  OnceCells.Job (SearchMethod × QueryResourceKey) (QueryRuntime B) QueryError

def classifyDataRoot (unresolved : String) : Except IoErrorKind Path → QueryDataRootKey
  | .ok path => .canonical path
  | .error _ => .unresolved (components unresolved)

def resourceOptions {B : Backend} (options : QueryOptions B) : QueryOptions B :=
  { options with callbacks := [], conversationHistory := none, explainability := none }

namespace QueryEngine

variable {B : Backend} (engine : QueryEngine B) (options : QueryOptions B)

def canonicalQueryRoot (root : String) (method : SearchMethod) (operation : String) :
    Except QueryError Path :=
  match engine.files.canonicalize root with
  | .error source =>
    .error (.invalidQueryConfig method operation
      ("project root must be an existing directory: " ++ engine.files.describe source))
  | .ok canonical =>
    match engine.files.tree.entry canonical with
    | some .directory => .ok canonical
    | some _ => .error (.invalidQueryConfig method operation "project root must be a directory")
    | none =>
      .error (.invalidQueryConfig method operation
        ("cannot inspect project root: " ++ engine.files.describe .notFound))

def validateProjectRoot : Except QueryError Unit := do
  let engineRoot ← engine.canonicalQueryRoot engine.project.root options.method
    "resolve QueryEngine project root"
  let optionsRoot ← engine.canonicalQueryRoot options.projectRoot options.method
    "resolve QueryOptions project root"
  if engineRoot ≠ optionsRoot then
    .error (.invalidQueryConfig options.method "validate QueryEngine project root"
      "QueryOptions project_root does not match the QueryEngine root")
  else .ok ()

def unresolvedDataRoot : String :=
  match options.dataDir with
  | none => engine.project.outputDir
  | some path => if isAbsolute path then path else Project.pushText engine.project.root path

def key (includeCommunityLevel dynamicCommunitySelection : Bool) : QueryResourceKey where
  dataRoot := classifyDataRoot (engine.unresolvedDataRoot options)
    (engine.files.canonicalize (engine.unresolvedDataRoot options))
  communityLevel := if includeCommunityLevel then options.communityLevel else 0
  dynamicCommunitySelection := dynamicCommunitySelection

/-! ### The methods -/

/-- A request that is not valid gets its error; one whose key is not kept assembles by itself. -/
def runtimeJob (requirements : Except QueryError Unit) (key : QueryResourceKey)
    (build : QueryOptions B → Except QueryError (QueryRuntime B)) : RuntimeJob B :=
  match requirements with
  | .error error => ⟨none, .error error⟩
  | .ok () =>
    ⟨if key.isCacheable then some (options.method, key) else none,
      build (resourceOptions options)⟩

def buildBasic (options : QueryOptions B) : Except QueryError (QueryRuntime B) :=
  (QueryRuntimeFactory.buildBasic engine.files engine.project options).map .basic

def buildLocal (options : QueryOptions B) : Except QueryError (QueryRuntime B) :=
  (QueryRuntimeFactory.buildLocal engine.files engine.project options).map .local

def buildGlobal (options : QueryOptions B) : Except QueryError (QueryRuntime B) :=
  (QueryRuntimeFactory.buildGlobal engine.files engine.project options).map .global

def buildDrift (options : QueryOptions B) : Except QueryError (QueryRuntime B) :=
  (QueryRuntimeFactory.buildDrift engine.files engine.project options).map .drift

def basicRuntime : RuntimeJob B :=
  runtimeJob options (validateBasicRequirements engine.project options)
    (engine.key options false false) engine.buildBasic

def localRuntime : RuntimeJob B :=
  runtimeJob options (validateLocalRequirements engine.project options)
    (engine.key options true false) engine.buildLocal

def globalRuntime : RuntimeJob B :=
  runtimeJob options (validateGlobalRequirements engine.project options)
    (engine.key options true options.dynamicCommunitySelection) engine.buildGlobal

def driftRuntime : RuntimeJob B :=
  runtimeJob options (validateDriftRequirements engine.project options)
    (engine.key options true false) engine.buildDrift

/-- The runtime of a request, after the check of its root. -/
def runtime : RuntimeJob B :=
  match engine.validateProjectRoot options with
  | .error error => ⟨none, .error error⟩
  | .ok () =>
    match options.method with
    | .basic => engine.basicRuntime options
    | .local => engine.localRuntime options
    | .global => engine.globalRuntime options
    | .drift => engine.driftRuntime options

/-! ### Requests -/

/-- Concurrent requests to one engine. -/
def system {ι : Type} [DecidableEq ι] (requests : ι → QueryOptions B) :
    System (OnceCells.State (SearchMethod × QueryResourceKey) ι (QueryRuntime B) QueryError) ι :=
  OnceCells.system fun i => engine.runtime (requests i)

/-- What a request goes on with: its own copy, with its own callbacks. -/
def received (result : Except QueryError (QueryRuntime B)) : Except QueryError (QueryRuntime B) :=
  result.map (·.withCallbacks options.callbacks)

/-- The runtime that a factory assembles from all of the options. -/
def build : Except QueryError (QueryRuntime B) :=
  match options.method with
  | .basic => engine.buildBasic options
  | .local => engine.buildLocal options
  | .global => engine.buildGlobal options
  | .drift => engine.buildDrift options

/-- What is checked of a request for its method. -/
def requirements : Except QueryError Unit :=
  match options.method with
  | .basic => validateBasicRequirements engine.project options
  | .local => validateLocalRequirements engine.project options
  | .global => validateGlobalRequirements engine.project options
  | .drift => validateDriftRequirements engine.project options

/-- A runtime that is assembled for one request from scratch, after the check of its root. -/
def fresh : Except QueryError (QueryRuntime B) := do
  engine.validateProjectRoot options
  engine.build options

/-- The key of a request for its method. -/
def resourceKey : QueryResourceKey :=
  match options.method with
  | .basic => engine.key options false false
  | .global => engine.key options true options.dynamicCommunitySelection
  | _ => engine.key options true false

end QueryEngine

end GraphLoom.Query
