import GraphLoom.Query.Engine
import GraphLoom.Query.Equiv.Runtime

/-!
# Requests do not see each other

Two valid requests with one key assemble the same runtime up to the callbacks (`build_of_key`), so
that a runtime that is kept serves every request with its key.  In every interleaving of requests,
each gets the runtime that its own options give, with its own callbacks
(`engine_isolates_requests`).
-/

namespace GraphLoom.Query

open Foundation

variable {B : Backend}

/-! ### Assembly without what belongs to the request -/

theorem except_map_bind {ε α β γ : Type} (x : Except ε α) (f : α → Except ε β) (g : β → γ) :
    (x >>= f).map g = x >>= fun a => (f a).map g := by
  cases x with
  | error e => rfl
  | ok a => rfl

namespace QueryRuntimeFactory

variable {files : IndexFiles B} {project : LoadedProject B} {options : QueryOptions B}

theorem buildBasic_resourceOptions (h : validateBasicRequirements project options = .ok ()) :
    (buildBasic files project (resourceOptions options)).map
        (fun runtime => { runtime with callbacks := options.callbacks }) =
      buildBasic files project options := by
  have hresource : validateBasicRequirements project (resourceOptions options) = .ok () := h
  unfold buildBasic
  rw [h, hresource]
  simp only [except_map_bind]
  rfl

/-- The conversation is not checked again. -/
theorem validateLocalRequirements_resourceOptions
    (h : validateLocalRequirements project options = .ok ()) :
    validateLocalRequirements project (resourceOptions options) = .ok () := by
  obtain ⟨_, hlevel, h⟩ := bind_eq_ok.mp h
  obtain ⟨_, hconfig, -⟩ := bind_eq_ok.mp h
  exact bind_eq_ok.mpr ⟨(), hlevel, bind_eq_ok.mpr ⟨(), hconfig, rfl⟩⟩

theorem buildLocal_resourceOptions (h : validateLocalRequirements project options = .ok ()) :
    (buildLocal files project (resourceOptions options)).map
        (fun runtime => { runtime with callbacks := options.callbacks }) =
      buildLocal files project options := by
  unfold buildLocal
  rw [h, validateLocalRequirements_resourceOptions h]
  simp only [except_map_bind]
  rfl

theorem buildGlobal_resourceOptions (h : validateGlobalRequirements project options = .ok ()) :
    (buildGlobal files project (resourceOptions options)).map
        (fun runtime => { runtime with callbacks := options.callbacks }) =
      buildGlobal files project options := by
  have hresource : validateGlobalRequirements project (resourceOptions options) = .ok () := h
  unfold buildGlobal
  rw [h, hresource]
  simp only [except_map_bind]
  rfl

theorem buildDrift_resourceOptions (h : validateDriftRequirements project options = .ok ()) :
    (buildDrift files project (resourceOptions options)).map
        (fun runtime => { runtime with callbacks := options.callbacks }) =
      buildDrift files project options := by
  have hresource : validateDriftRequirements project (resourceOptions options) = .ok () := h
  unfold buildDrift
  rw [h, hresource]
  simp only [except_map_bind]
  rfl

end QueryRuntimeFactory

namespace QueryEngine

open QueryRuntimeFactory

variable (engine : QueryEngine B) (options options' : QueryOptions B)

/-! ### Keys -/

theorem unresolvedDataRoot_eq :
    engine.unresolvedDataRoot options = dataRoot engine.project options := rfl

variable {engine options options'}

/-- Keys with the same root are of the same directory, if it is one. -/
theorem sameData_of_key {level level' dynamic dynamic' : Bool}
    (hkey : (engine.key options level dynamic).dataRoot =
      (engine.key options' level' dynamic').dataRoot) :
    SameData engine.files engine.project options options' := by
  intro hdir
  rw [key, key, unresolvedDataRoot_eq, unresolvedDataRoot_eq] at hkey
  dsimp only at hkey
  unfold IndexFiles.isDir at hdir
  cases hcanonical : engine.files.canonicalize (dataRoot engine.project options) with
  | error kind =>
    rw [hcanonical] at hdir
    exact absurd hdir Bool.false_ne_true
  | ok location =>
    rw [hcanonical] at hkey
    cases hcanonical' : engine.files.canonicalize (dataRoot engine.project options') with
    | error kind =>
      rw [hcanonical'] at hkey
      exact nomatch hkey
    | ok location' =>
      rw [hcanonical'] at hkey
      rw [QueryDataRootKey.canonical.inj hkey]

/-- **Equal keys are equal runtimes**, up to the callbacks. -/
theorem build_of_key (hmethod : options.method = options'.method)
    (hkey : engine.resourceKey options = engine.resourceKey options')
    (hrequirements : engine.requirements options' = .ok ()) {runtime : QueryRuntime B}
    (h : engine.build options = .ok runtime) :
    engine.build options' = .ok (runtime.withCallbacks options'.callbacks) := by
  unfold resourceKey at hkey
  unfold requirements at hrequirements
  unfold build at h ⊢
  rw [hmethod] at hkey h
  cases hmethod' : options'.method with
  | basic =>
    rw [hmethod'] at hkey hrequirements h
    obtain ⟨basic, hbasic, rfl⟩ := map_eq_ok.mp h
    have hdata := sameData_of_key (congrArg QueryResourceKey.dataRoot hkey)
    exact map_eq_ok.mpr ⟨_, buildBasic_of_sameData hdata hrequirements hbasic, rfl⟩
  | «local» =>
    rw [hmethod'] at hkey hrequirements h
    obtain ⟨found, hfound, rfl⟩ := map_eq_ok.mp h
    have hdata := sameData_of_key (congrArg QueryResourceKey.dataRoot hkey)
    have hlevel := congrArg QueryResourceKey.communityLevel hkey
    exact map_eq_ok.mpr ⟨_, buildLocal_of_sameData hdata hlevel hrequirements hfound, rfl⟩
  | global =>
    rw [hmethod'] at hkey hrequirements h
    obtain ⟨found, hfound, rfl⟩ := map_eq_ok.mp h
    have hdata := sameData_of_key (congrArg QueryResourceKey.dataRoot hkey)
    have hlevel := congrArg QueryResourceKey.communityLevel hkey
    have hdynamic := congrArg QueryResourceKey.dynamicCommunitySelection hkey
    exact map_eq_ok.mpr
      ⟨_, buildGlobal_of_sameData hdata hlevel hdynamic hrequirements hfound, rfl⟩
  | drift =>
    rw [hmethod'] at hkey hrequirements h
    obtain ⟨found, hfound, rfl⟩ := map_eq_ok.mp h
    have hdata := sameData_of_key (congrArg QueryResourceKey.dataRoot hkey)
    have hlevel := congrArg QueryResourceKey.communityLevel hkey
    exact map_eq_ok.mpr ⟨_, buildDrift_of_sameData hdata hlevel hrequirements hfound, rfl⟩

/-! ### Single requests -/

theorem requirements_resourceOptions (h : engine.requirements options = .ok ()) :
    engine.requirements (resourceOptions options) = .ok () := by
  have hmethod : (resourceOptions options).method = options.method := rfl
  unfold requirements at h ⊢
  rw [hmethod]
  cases hcase : options.method with
  | basic =>
    rw [hcase] at h
    exact h
  | «local» =>
    rw [hcase] at h
    exact validateLocalRequirements_resourceOptions h
  | global =>
    rw [hcase] at h
    exact h
  | drift =>
    rw [hcase] at h
    exact h

theorem map_of_requirements (h : engine.requirements options = .ok ()) :
    received options (engine.build (resourceOptions options)) = engine.build options := by
  have hmap : ∀ {α : Type} {x y : Except QueryError α} {f : α → α} {g : α → QueryRuntime B},
      x.map f = y → (∀ a, (g a).withCallbacks options.callbacks = g (f a)) →
      (x.map g).map (·.withCallbacks options.callbacks) = y.map g := by
    intro α x y f g hxy hg
    rw [← hxy]
    cases x with
    | error e => rfl
    | ok a => exact congrArg Except.ok (hg a)
  unfold requirements at h
  unfold received build
  have hmethod : (resourceOptions options).method = options.method := rfl
  rw [hmethod]
  cases hcase : options.method with
  | basic =>
    rw [hcase] at h
    exact hmap (buildBasic_resourceOptions h) fun _ => rfl
  | «local» =>
    rw [hcase] at h
    exact hmap (buildLocal_resourceOptions h) fun _ => rfl
  | global =>
    rw [hcase] at h
    exact hmap (buildGlobal_resourceOptions h) fun _ => rfl
  | drift =>
    rw [hcase] at h
    exact hmap (buildDrift_resourceOptions h) fun _ => rfl

theorem build_of_requirements_error {error : QueryError}
    (h : engine.requirements options = .error error) :
    engine.build options = .error error := by
  have hfail : ∀ {α β : Type} {requirements : Except QueryError Unit}
      {rest : Unit → Except QueryError α} {f : α → β}, requirements = .error error →
      (requirements >>= rest).map f = .error error := by
    intro α β requirements rest f h
    rw [h]
    rfl
  unfold requirements at h
  unfold build
  cases hcase : options.method with
  | basic =>
    rw [hcase] at h
    exact hfail h
  | «local» =>
    rw [hcase] at h
    exact hfail h
  | global =>
    rw [hcase] at h
    exact hfail h
  | drift =>
    rw [hcase] at h
    exact hfail h

theorem runtimeJob_congr {requirements : Except QueryError Unit} {key : QueryResourceKey}
    {build build' : QueryOptions B → Except QueryError (QueryRuntime B)}
    (h : build (resourceOptions options) = build' (resourceOptions options)) :
    runtimeJob options requirements key build = runtimeJob options requirements key build' := by
  unfold runtimeJob
  rw [h]

/-- The four methods as one. -/
theorem runtime_eq (hroot : engine.validateProjectRoot options = .ok ()) :
    engine.runtime options = runtimeJob options (engine.requirements options)
      (engine.resourceKey options) engine.build := by
  have hmethod : (resourceOptions options).method = options.method := rfl
  unfold runtime requirements resourceKey
  rw [hroot]
  cases hcase : options.method with
  | basic => exact runtimeJob_congr (by rw [build, hmethod, hcase])
  | «local» => exact runtimeJob_congr (by rw [build, hmethod, hcase])
  | global => exact runtimeJob_congr (by rw [build, hmethod, hcase])
  | drift => exact runtimeJob_congr (by rw [build, hmethod, hcase])

/-- What a request makes for itself is its own runtime. -/
theorem received_make :
    received options (engine.runtime options).make = engine.fresh options := by
  unfold fresh
  cases hroot : engine.validateProjectRoot options with
  | error error =>
    unfold runtime
    rw [hroot]
    rfl
  | ok _ =>
    rw [runtime_eq hroot]
    show received options (runtimeJob options _ _ _).make = engine.build options
    unfold runtimeJob
    cases hrequirements : engine.requirements options with
    | error error => exact (build_of_requirements_error hrequirements).symm
    | ok _ => exact map_of_requirements hrequirements

/-- A request with a key is valid, and the key is that of its method. -/
theorem runtime_key {key : SearchMethod × QueryResourceKey}
    (h : (engine.runtime options).key = some key) :
    engine.requirements options = .ok () ∧ key = (options.method, engine.resourceKey options) ∧
      (engine.runtime options).make = engine.build (resourceOptions options) := by
  cases hroot : engine.validateProjectRoot options with
  | error error =>
    unfold runtime at h
    rw [hroot] at h
    exact nomatch h
  | ok _ =>
    rw [runtime_eq hroot] at h ⊢
    unfold runtimeJob at h ⊢
    cases hrequirements : engine.requirements options with
    | error error =>
      rw [hrequirements] at h
      exact nomatch h
    | ok _ =>
      rw [hrequirements] at h
      dsimp only at h
      split_ifs at h
      exact ⟨rfl, (Option.some.inj h).symm, rfl⟩

/-! ### Interleaved requests -/

/-- **No request is served what belongs to another.**  In every interleaving of requests, a request
gets the runtime that its own options give from scratch, with its own callbacks; and the runtimes of
any two options with one key are the same up to the callbacks. -/
theorem engine_isolates_requests (engine : QueryEngine B) :
    (∀ {ι : Type} [DecidableEq ι] (requests : ι → QueryOptions B)
      {s : OnceCells.State (SearchMethod × QueryResourceKey) ι (QueryRuntime B) QueryError},
      (engine.system requests).Reachable s →
      ∀ (i : ι) (result : Except QueryError (QueryRuntime B)),
        s.phases i = .returned result →
        received (requests i) result = engine.fresh (requests i) ∧
        ∀ runtime, received (requests i) result = .ok runtime →
          runtime.callbacks = (requests i).callbacks) ∧
    ∀ options options' : QueryOptions B, options.method = options'.method →
      engine.resourceKey options = engine.resourceKey options' →
      ∀ runtime runtime', engine.build options = .ok runtime →
        engine.build options' = .ok runtime' →
        runtime.withCallbacks [] = runtime'.withCallbacks [] := by
  constructor
  · intro ι _ requests s hreachable i result hresult
    -- a runtime that is kept is that of every request with its key
    have hagree : ∀ j k key value, (engine.runtime (requests j)).key = some key →
        (engine.runtime (requests k)).key = some key →
        (engine.runtime (requests j)).make = .ok value →
        (engine.runtime (requests k)).make = .ok value := by
      intro j k key value hj hk hmake
      obtain ⟨hrequirementsj, hkey, hmakej⟩ := runtime_key hj
      obtain ⟨hrequirements, hkey', hmakek⟩ := runtime_key hk
      obtain ⟨hmethod, hkeys⟩ := Prod.mk.inj (hkey.symm.trans hkey')
      rw [hmakej] at hmake
      rw [hmakek]
      have hresource := requirements_resourceOptions hrequirements
      have hown := build_of_key rfl rfl (requirements_resourceOptions hrequirementsj) hmake
      have hmethod' : (resourceOptions (requests j)).method =
          (resourceOptions (requests k)).method := hmethod
      have hkeys' : engine.resourceKey (resourceOptions (requests j)) =
          engine.resourceKey (resourceOptions (requests k)) := hkeys
      have hother := build_of_key hmethod' hkeys' hresource hmake
      rw [hmake] at hown
      rw [hother]
      exact hown.symm
    have hmake := OnceCells.returned_eq_make hagree hreachable hresult
    rw [hmake]
    refine ⟨received_make, fun runtime hruntime => ?_⟩
    obtain ⟨own, -, rfl⟩ := map_eq_ok.mp hruntime
    exact own.callbacks_withCallbacks _
  · intro options options' hmethod hkey runtime runtime' h h'
    have hrequirements : engine.requirements options' = .ok () := by
      cases hrequirements : engine.requirements options' with
      | error error =>
        rw [build_of_requirements_error hrequirements] at h'
        exact nomatch h'
      | ok _ => rfl
    have hbuild := build_of_key hmethod hkey hrequirements h
    rw [h'] at hbuild
    rw [Except.ok.inj hbuild, QueryRuntime.withCallbacks_withCallbacks]

end QueryEngine

/-- A backend whose tables are of text units, and whose models answer nothing. -/
abbrev unitBackend : Backend where
  ModelConfig := Unit
  Completion := Unit
  Embedding := Unit
  VectorStore := Unit
  Vector := Unit
  PromptTemplate := Unit
  Frame := List TextUnit
  Callback := ℕ
  Explainability := Unit
  providerType _ := "openai"
  createCompletion _ _ _ := .ok ()
  createEmbedding _ _ _ := .ok ()
  createTokenizer _ := .ok ⟨fun _ => .ok 0, fun _ _ h => by rw [← Except.ok.inj h]; decide⟩
  createVectorStore := .ok ()
  count _ _ := .ok 2
  getById _ _ _ := .ok none
  dimension _ := 0
  usable _ := true
  vectorErrorText _ := ""
  loadConfigured _ _ := .ok ()
  readEntities _ _ _ _ := .ok []
  readReports _ _ _ _ _ := .ok []
  readCommunities _ _ _ := .ok []
  readTextUnits textUnits _ := .ok textUnits
  readRelationships _ _ := .ok []
  readCovariates _ _ := .ok []
  sumAboveOne _ _ := false
  operations :=
    { tokenizer := ⟨fun _ => .ok 0, fun _ _ h => by rw [← Except.ok.inj h]; decide⟩
      csv := fun _ => .ok ""
      proportion := fun total _ => total
      localProportion := fun _ _ => ⟨0⟩
      pythonF64 := fun _ => ""
      toLowercase := id }

/-- The units of an index. -/
def rootUnits : List TextUnit :=
  [⟨"t1", "0", "Ada repairs engines.", ["r1"]⟩, ⟨"t2", "1", "Ada knows Bob.", ["r1", "r2"]⟩]

/-- An engine over the root directory, with the text units there. -/
def rootEngine : QueryEngine unitBackend where
  project :=
    { root := "/"
      outputDir := "/"
      vectorDbUri := "/"
      config :=
        { completionModels := (∅ : Std.ExtTreeMap String Unit).insert "chat" ()
          embeddingModels := (∅ : Std.ExtTreeMap String Unit).insert "embed" ()
          concurrentRequests := 4
          vectorStore := ⟨2, ∅⟩
          basicSearch := ⟨none, "chat", "embed", 10, 12000⟩
          localSearch := ⟨⟨⟨0⟩, ⟨0⟩, 5, 10, 10, 12000⟩, none, "chat", "embed"⟩
          globalSearch :=
            ⟨⟨1, false, 4, by decide⟩, none, none, none, "chat", 12000, 12000, 1000, 2000, 1, false⟩
          driftSearch := ⟨none, none, "chat", "embed", 12000, none, ⟨0⟩, none, 32, 20, 5, 12000, 3,
            ⟨0⟩, ⟨0⟩, 10, 10, 12000, ⟨0⟩, ⟨0⟩, 1, none, none⟩ } }
  files :=
    { tree := ⟨∅, by simp⟩
      links := 0
      currentDir := []
      describe := fun _ => ""
      table := fun _ object => if object = "text_units.parquet" then .frame rootUnits else .missing }

/-- The data at two paths to one directory, with two callbacks. -/
def rootRequests (again : Bool) : QueryOptions unitBackend where
  projectRoot := "/"
  query := "Who?"
  method := .basic
  dataDir := if again then some "/." else none
  communityLevel := 2
  dynamicCommunitySelection := again
  responseType := "Multiple Paragraphs"
  callbacks := if again then [2] else [1]
  conversationHistory := none
  explainability := none

def QueryRuntime.basicTextUnits {B : Backend} : QueryRuntime B → List TextUnit
  | .basic runtime => runtime.basicContext.textUnits
  | _ => []

/-- The second request shares the runtime of the first, with the text units that it has read, and
gets it with callbacks of its own. -/
theorem engine_isolates_requests_shared :
    ∃ (s : OnceCells.State (SearchMethod × QueryResourceKey) Bool (QueryRuntime unitBackend)
        QueryError) (runtime : QueryRuntime unitBackend),
      (rootEngine.system rootRequests).Reachable s ∧ s.phases true = .returned (.ok runtime) ∧
      runtime.basicTextUnits = rootUnits ∧ runtime.callbacks = [] ∧
      rootEngine.fresh (rootRequests true) = .ok (runtime.withCallbacks [2]) := by
  have hkey : ∀ again, (rootEngine.runtime (rootRequests again)).key =
      some (.basic, ⟨.canonical [], 0, false⟩) := by
    decide +kernel
  have hmade : (rootEngine.runtime (rootRequests false)).make.toOption.map
      (fun runtime => (runtime.basicTextUnits, runtime.callbacks)) = some (rootUnits, []) := by
    decide +kernel
  cases hmake : (rootEngine.runtime (rootRequests false)).make with
  | error error =>
    rw [hmake] at hmade
    exact nomatch hmade
  | ok runtime =>
    have hstart : (rootEngine.system rootRequests).Reachable
        ⟨fun _ => .empty, fun _ => .waiting⟩ := .init ⟨fun _ => rfl, fun _ => rfl⟩
    have hbegins := System.Reachable.step hstart (.begins rfl (hkey false) rfl)
    have hsucceeds := System.Reachable.step hbegins (.succeeds (by simp) (hkey false) (by simp)
      hmake)
    have hshares := System.Reachable.step hsucceeds (.shares rfl (hkey true)
      (by rw [OnceCells.State.setPhase_cells, OnceCells.State.setCell_cells_self]))
    rw [hmake] at hmade
    obtain ⟨hunits, hcallbacks⟩ := Prod.mk.inj (Option.some.inj hmade)
    refine ⟨_, runtime, hshares, OnceCells.State.setPhase_phases_self .., hunits, hcallbacks, ?_⟩
    exact ((QueryEngine.engine_isolates_requests rootEngine).1 rootRequests hshares true _
      (OnceCells.State.setPhase_phases_self ..)).1.symm

end GraphLoom.Query
