import GraphLoom.Query.Runtime

/-!
# What a runtime depends on

Of the options, a factory uses the root of the data, the level of communities and the mode of the
selection, and passes the callbacks on (`buildBasic_of_sameData` and its like).  The others count
only for the requirements.
-/

namespace GraphLoom.Query

open Foundation Std

variable {B : Backend} {files : IndexFiles B} {project : LoadedProject B}
  {options options' : QueryOptions B} {root root' : String} {method : SearchMethod}

/-! ### Tables -/

variable {table : String}

section Tables

variable (hroot : files.canonicalize root = files.canonicalize root')

include hroot

/-- What is read at a root depends only on where the root is. -/
theorem readTable_of_canonicalize {table operation : String} (frame : Option B.Frame)
    (h : files.readTable root table method operation = .ok frame) :
    files.readTable root' table method operation = .ok frame := by
  unfold IndexFiles.readTable at h ⊢
  have hread : files.read root' (table ++ ".parquet") = files.read root (table ++ ".parquet") := by
    rw [IndexFiles.read, IndexFiles.read, hroot]
  dsimp only at h ⊢
  rw [hread]
  cases hobject : files.read root (table ++ ".parquet") with
  | frame frame' =>
    rw [hobject] at h
    exact h
  | missing =>
    rw [hobject] at h
    exact h
  | unreadable source =>
    rw [hobject] at h
    exact nomatch h
  | malformed source =>
    rw [hobject] at h
    exact nomatch h

/-- What begins with a table that is required. -/
theorem required_bind_of_canonicalize {α : Type} {data : α}
    {load load' : B.Frame → Except QueryError α}
    (hload : ∀ frame, load frame = .ok data → load' frame = .ok data)
    (h : files.required root table method >>= load = .ok data) :
    files.required root' table method >>= load' = .ok data :=
  except_bind_mono (fun _ => except_bind_mono (readTable_of_canonicalize hroot) fun _ => id) hload h

theorem loadBasic_of_canonicalize {data : BasicQueryData} (h : loadBasic files root = .ok data) :
    loadBasic files root' = .ok data :=
  required_bind_of_canonicalize hroot (fun _ => id) h

variable {level : ℤ}

theorem loadGlobal_of_canonicalize {dynamic : Bool} {data : GlobalQueryData}
    (h : loadGlobal files root level dynamic = .ok data) :
    loadGlobal files root' level dynamic = .ok data := by
  refine required_bind_of_canonicalize hroot (fun _ => ?_) h
  exact required_bind_of_canonicalize hroot fun _ => required_bind_of_canonicalize hroot fun _ => id

theorem loadLocal_of_canonicalize {data : LocalQueryData}
    (h : loadLocal files root level = .ok data) : loadLocal files root' level = .ok data := by
  refine required_bind_of_canonicalize hroot (fun _ => ?_) h
  refine required_bind_of_canonicalize hroot fun _ => required_bind_of_canonicalize hroot fun _ => ?_
  refine required_bind_of_canonicalize hroot fun _ => required_bind_of_canonicalize hroot fun _ => ?_
  exact except_bind_mono (readTable_of_canonicalize hroot) fun _ => id

theorem loadDrift_of_canonicalize {data : DriftQueryData}
    (h : loadDrift files root level = .ok data) : loadDrift files root' level = .ok data := by
  refine required_bind_of_canonicalize hroot (fun _ => ?_) h
  refine required_bind_of_canonicalize hroot fun _ => required_bind_of_canonicalize hroot fun _ => ?_
  exact required_bind_of_canonicalize hroot fun _ => required_bind_of_canonicalize hroot fun _ => id

end Tables

/-! ### Roots -/

/-- The root of the data of a query. -/
def dataRoot (project : LoadedProject B) (options : QueryOptions B) : String :=
  resolveDataRoot project.root options.dataDir project.outputDir

/-- Two queries with the same directory, if it is one. -/
def SameData (files : IndexFiles B) (project : LoadedProject B) (options options' : QueryOptions B) :
    Prop :=
  files.isDir (dataRoot project options) →
    files.canonicalize (dataRoot project options) = files.canonicalize (dataRoot project options')

theorem openTableProvider_eq_ok : openTableProvider files project options method table = .ok root ↔
      files.isDir (dataRoot project options) ∧ root = dataRoot project options := by
  have hroot : resolveDataRoot project.root options.dataDir project.outputDir =
      dataRoot project options := rfl
  unfold openTableProvider
  dsimp only
  rw [hroot]
  by_cases hdir : files.isDir (dataRoot project options)
  · have hexisting : files.existing (dataRoot project options) =
        .ok (dataRoot project options) := by
      unfold IndexFiles.isDir at hdir
      unfold IndexFiles.existing
      cases hlocation : files.canonicalize (dataRoot project options) with
      | error kind =>
        rw [hlocation] at hdir
        exact absurd hdir Bool.false_ne_true
      | ok location =>
        rw [hlocation] at hdir
        exact if_pos (of_decide_eq_true hdir)
    rw [if_neg (not_not.mpr hdir), hexisting]
    constructor
    · exact fun h => ⟨hdir, (Except.ok.inj h).symm⟩
    · rintro ⟨-, rfl⟩
      rfl
  · rw [if_pos hdir]
    exact iff_of_false nofun fun h => hdir h.1

theorem isDir_of_canonicalize (hroot : files.canonicalize root = files.canonicalize root')
    (hdir : files.isDir root) : files.isDir root' := by
  rwa [IndexFiles.isDir, ← hroot]

/-- Data that are loaded from one root are loaded from another that is the same directory. -/
theorem load_of_sameData {α : Type} {load : String → Except QueryError α}
    (hload : ∀ {root root' : String}, files.canonicalize root = files.canonicalize root' →
      ∀ {data}, load root = .ok data → load root' = .ok data)
    (hsame : SameData files project options options') {data : α}
    (h : openTableProvider files project options method table >>= load = .ok data) :
    openTableProvider files project options' method table >>= load = .ok data := by
  obtain ⟨root, hroot, h⟩ := bind_eq_ok.mp h
  obtain ⟨hdir, rfl⟩ := openTableProvider_eq_ok.mp hroot
  have hcanonical := hsame hdir
  exact bind_eq_ok.mpr ⟨dataRoot project options',
    openTableProvider_eq_ok.mpr ⟨isDir_of_canonicalize hcanonical hdir, rfl⟩,
    hload hcanonical h⟩

/-! ### Runtimes -/

namespace QueryRuntimeFactory

/-- What is built of data that are loaded is built when they are loaded elsewhere. -/
theorem build_of_load {α ρ ρ' : Type} {validate validate' : Except QueryError Unit}
    {load load' : Except QueryError α} {build : α → Except QueryError ρ}
    {build' : α → Except QueryError ρ'} {runtime : ρ} {runtime' : ρ'} (hvalid : validate' = .ok ())
    (hload : ∀ data, load = .ok data → load' = .ok data)
    (hbuild : ∀ data, build data = .ok runtime → build' data = .ok runtime')
    (h : (validate >>= fun _ => load >>= build) = .ok runtime) :
    (validate' >>= fun _ => load' >>= build') = .ok runtime' :=
  except_bind_mono (fun _ _ => hvalid) (fun _ => except_bind_mono hload hbuild) h

section SameData

variable (hsame : SameData files project options options')

include hsame

/-- **Basic Search takes from the options the root of the data and the callbacks.** -/
theorem buildBasic_of_sameData (hrequirements : validateBasicRequirements project options' = .ok ())
    {runtime : BasicQueryRuntime B} (h : buildBasic files project options = .ok runtime) :
    buildBasic files project options' =
      .ok { runtime with callbacks := options'.callbacks } := by
  refine build_of_load hrequirements (fun textUnits => ?_) (fun textUnits => ?_) h
  · exact load_of_sameData (fun hroot _ => except_bind_mono
      (fun _ => loadBasic_of_canonicalize hroot) fun _ => id) hsame
  · refine except_bind_mono (fun _ => id) fun models => ?_
    refine except_bind_mono (fun _ => id) fun vectors => ?_
    refine except_bind_mono (fun _ => id) fun prompt hbuilt => ?_
    obtain rfl := Except.ok.inj hbuilt
    rfl

variable (hlevel : options.communityLevel = options'.communityLevel)
include hlevel

/-- **Local Search takes the level of communities too.** -/
theorem buildLocal_of_sameData (hrequirements : validateLocalRequirements project options' = .ok ())
    {runtime : LocalQueryRuntime B} (h : buildLocal files project options = .ok runtime) :
    buildLocal files project options' =
      .ok { runtime with callbacks := options'.callbacks } := by
  refine build_of_load hrequirements (fun data => ?_) (fun data => ?_) h
  · rw [loadLocalData, loadLocalData, hlevel]
    exact load_of_sameData (fun hroot _ => loadLocal_of_canonicalize hroot) hsame
  · refine except_bind_mono (fun _ => id) fun models => ?_
    refine except_bind_mono (fun _ => id) fun vectors => ?_
    refine except_bind_mono (fun _ => id) fun prompt hbuilt => ?_
    obtain rfl := Except.ok.inj hbuilt
    rfl

/-- **Global Search takes the level of communities and the mode of the selection too.** -/
theorem buildGlobal_of_sameData
    (hdynamic : options.dynamicCommunitySelection = options'.dynamicCommunitySelection)
    (hrequirements : validateGlobalRequirements project options' = .ok ())
    {runtime : GlobalQueryRuntime B} (h : buildGlobal files project options = .ok runtime) :
    buildGlobal files project options' =
      .ok { runtime with callbacks := options'.callbacks } := by
  refine build_of_load hrequirements (fun data => ?_) (fun data => ?_) h
  · rw [loadGlobalData, loadGlobalData, hlevel, hdynamic]
    exact load_of_sameData (fun hroot _ => loadGlobal_of_canonicalize hroot) hsame
  · refine except_bind_mono (fun _ => id) fun models => ?_
    refine except_bind_mono (fun _ => id) fun mapPrompt => ?_
    refine except_bind_mono (fun _ => id) fun reducePrompt => ?_
    refine except_bind_mono (fun _ => id) fun knowledgePrompt hbuilt => ?_
    obtain rfl := Except.ok.inj hbuilt
    rw [hdynamic]
    rfl

/-- **DRIFT Search takes the level of communities too.** -/
theorem buildDrift_of_sameData (hrequirements : validateDriftRequirements project options' = .ok ())
    {runtime : DriftQueryRuntime B} (h : buildDrift files project options = .ok runtime) :
    buildDrift files project options' =
      .ok { runtime with callbacks := options'.callbacks } := by
  refine build_of_load hrequirements (fun data => ?_) (fun data => ?_) h
  · rw [loadDriftData, loadDriftData, hlevel]
    exact load_of_sameData (fun hroot _ => loadDrift_of_canonicalize hroot) hsame
  · refine except_bind_mono (fun _ => id) fun models => ?_
    refine except_bind_mono (fun _ => id) fun vectors => ?_
    refine except_bind_mono (fun _ => id) fun localPrompt => ?_
    refine except_bind_mono (fun _ => id) fun reducePrompt => ?_
    refine except_bind_mono (fun _ => id) fun reports hbuilt => ?_
    obtain rfl := Except.ok.inj hbuilt
    rfl

end SameData

end QueryRuntimeFactory

end GraphLoom.Query
