import GraphLoom.Project.Equiv.Resolve

/-!
## Destructive writes

`pathsSafe_iff`: for a file tree and an environment, no configuration that is accepted lets a write
reach a protected directory exactly when the home directory is found where it lies (`HomeFound`):
its path is normalized before it is resolved, which can lead elsewhere when it has `..` in it.

A path that is accepted lies where it is written (`WriteTarget`), and its location is compared with
those of the protected paths (`SafeTarget`).
-/

namespace GraphLoom.Project

open Foundation

/-! ### Statement -/

/-- One of the locations is at the other or below it. -/
def Overlap (left right : Path) : Prop := left <:+ right ∨ right <:+ left

/-- Where the home directory lies, by the path that the environment has. -/
def HomeLies (env : Environment) (tree : LinkTree) (location : Path) : Prop :=
  ∃ home, homeVar env = some home ∧
    if isAbsolute home then tree.Lies [] (kernelComponents home) location
    else ∃ directory, env.currentDir = .ok directory ∧
      tree.Lies [] (toPath directory ++ kernelComponents home) location

/-- The path that is written to has no links and lies where it is written. -/
structure WriteTarget (tree : LinkTree) (path : PathBuf) (target : Path) : Prop where
  written : path = toPath target
  lies : tree.Lies [] path target
  noLink : ∀ above, above <:+ target → ∀ link, tree.entry above ≠ some (.symlink link)

/-- A location to write to that reaches neither the root of the project, nor the home directory, nor
the paths that it has to be apart from. -/
structure SafeTarget (env : Environment) (tree : LinkTree) (root : PathBuf) (apart : List PathBuf)
    (target : Path) : Prop where
  filesystemRoot : target ≠ []
  root : ∃ location, tree.Lies [] root location ∧ ¬ target <:+ location
  home : ∀ location, HomeLies env tree location → ¬ target <:+ location
  apart : ∀ path ∈ apart, ∃ location, tree.Lies [] path location ∧ ¬ Overlap target location

/-- No accepted configuration lets a write reach a protected directory. -/
def PathsSafe (env : Environment) (tree : LinkTree) (links : ℕ) : Prop :=
  ∀ root config paths, ProjectPaths.resolve env tree links root config = .ok paths →
    (∃ output, WriteTarget tree paths.outputDir output ∧
      SafeTarget env tree paths.root [paths.inputDir, paths.cacheDir, paths.reportingDir] output) ∧
    (paths.validateUpdateOutputPathSafety env tree links = .ok () →
      ∃ update, WriteTarget tree paths.updateOutputDir update ∧
        SafeTarget env tree paths.root [paths.inputDir, paths.outputDir, paths.cacheDir,
          paths.reportingDir, paths.vectorDbUri] update) ∧
    (paths.validateVectorPathSafety env tree links = .ok () →
      ∃ vector, WriteTarget tree paths.vectorDbUri vector ∧
        SafeTarget env tree paths.root [paths.inputDir, paths.cacheDir, paths.reportingDir] vector ∧
        ∃ output, tree.Lies [] paths.outputDir output ∧ ¬ vector <:+ output)

/-- The home directory that the checks find is at the one that the environment has, or below it. -/
def HomeFound (env : Environment) (tree : LinkTree) (links : ℕ) : Prop :=
  ∀ location, HomeLies env tree location → ∀ home resolved, userHomeDir env = some home →
    resolvePathFollowingLinks env tree links home = .ok resolved →
    ∀ found, resolved.resolved = toPath found → location <:+ found

variable {env : Environment} {tree : LinkTree} {links : ℕ} {path : PathBuf} {names : List String}
  {linkPolicy : LinkPolicy} {resolved : ResolvedPath} {location target : Path}

/-! ### Comparisons -/

theorem normal_injective : Function.Injective Component.normal := fun _ _ h =>
  Component.normal.inj h

theorem toPath_injective : Function.Injective toPath := by
  intro left right h
  have hreverse := List.map_injective_iff.mpr normal_injective (List.cons.inj h).2
  exact List.reverse_injective hreverse

variable {left right : Path}

theorem startsWith_iff_suffix :
    PathBuf.startsWith (toPath left) (toPath right) ↔ right <:+ left := by
  unfold PathBuf.startsWith toPath
  rw [List.isPrefixOf_iff_prefix, List.cons_prefix_cons,
    List.prefix_map_iff_of_injective normal_injective, List.reverse_prefix]
  simp

theorem pathsOverlap_iff : pathsOverlap (toPath left) (toPath right) ↔ Overlap left right := by
  unfold pathsOverlap pathIsWithinOrEqual Overlap
  rw [Bool.or_eq_true, startsWith_iff_suffix, startsWith_iff_suffix]
  exact or_comm

theorem isFilesystemRoot_iff : isFilesystemRoot (toPath target) ↔ target = [] := by
  unfold isFilesystemRoot
  simp [toPath]

variable {unsafePath : Unsafe} {message : String}

theorem rejectAncestor_eq_ok :
    rejectAncestor unsafePath message (toPath left) (toPath right) = .ok () ↔ ¬ left <:+ right := by
  unfold rejectAncestor
  constructor
  · intro h hsuffix
    rw [if_pos (.inr (startsWith_iff_suffix.mpr hsuffix))] at h
    cases h
  · intro h
    rw [if_neg]
    rintro (heq | hsuffix)
    · exact h (by rw [toPath_injective heq])
    · exact h (startsWith_iff_suffix.mp hsuffix)

theorem rejectFilesystemRoot_eq_ok :
    rejectFilesystemRoot unsafePath message (toPath target) = .ok () ↔ target ≠ [] := by
  unfold rejectFilesystemRoot
  by_cases hroot : target = []
  · rw [if_pos (isFilesystemRoot_iff.mpr hroot)]
    simp [hroot]
  · rw [if_neg (fun h => hroot (isFilesystemRoot_iff.mp h))]
    simp [hroot]

theorem rejectOverlaps_eq_ok {subject : String} {target : PathBuf}
    {labelled : List (PathBuf × String)} :
    rejectOverlaps unsafePath subject target labelled = .ok () ↔
      ∀ path ∈ labelled, ¬ pathsOverlap target path.1 := by
  induction labelled with
  | nil => simp [rejectOverlaps]
  | cons labelled rest ih =>
    obtain ⟨path, label⟩ := labelled
    unfold rejectOverlaps
    rw [List.forall_mem_cons]
    by_cases hoverlap : pathsOverlap target path
    · rw [if_pos hoverlap]
      simp [hoverlap]
    · rw [if_neg hoverlap, ih]
      simp [hoverlap]

/-! ### Resolved paths -/

theorem absolute_injective {names names' : List String} (h : absolute names = absolute names') :
    names = names' :=
  List.map_injective_iff.mpr normal_injective (List.cons.inj h).2

/-- A path of the project that is resolved. -/
theorem resolve_absolute
    (h : resolvePathWithExistingAncestor env tree links (absolute names) linkPolicy = .ok resolved) :
    ∃ location, tree.Lies [] (absolute names) location ∧ resolved.resolved = toPath location ∧
      (linkPolicy = .reject → WriteTarget tree (absolute names) location) := by
  obtain ⟨names', location, hresolution⟩ := resolve_spec h
  have hlexical := hresolution.lexical
  rw [absoluteLexical_absolute, Except.ok.injEq] at hlexical
  obtain rfl := absolute_injective hlexical
  refine ⟨location, hresolution.lies, hresolution.resolved, fun hreject => ?_⟩
  obtain ⟨hwritten, hnolink⟩ := hresolution.written hreject
  refine ⟨?_, hresolution.lies, hnolink⟩
  rw [hwritten, toPath_eq, List.reverse_reverse]

theorem resolvePath_absolute (names : List String) (value : String) :
    ∃ names', resolvePath (absolute names) value = absolute names' := by
  unfold resolvePath
  dsimp only
  split
  · rename_i habsolute
    exact normalizePath_isAbsolute habsolute
  · exact normalizePath_isAbsolute (isAbsolute_join isAbsolute_absolute)

theorem components_isAbsolute {path : String} (h : isAbsolute path) :
    PathBuf.isAbsolute (components path) := by
  unfold components
  rw [if_pos h]
  rfl

theorem absoluteNormalized_eq_ok {root : String} (h : absoluteNormalized env tree links root = .ok path) :
    ∃ names, path = absolute names := by
  unfold absoluteNormalized at h
  dsimp only at h
  split at h
  · rename_i habsolute
    rw [← Except.ok.inj h]
    split
    · exact ⟨_, rfl⟩
    · exact normalizePath_isAbsolute (components_isAbsolute habsolute)
  · cases hdirectory : env.currentDir with
    | error source =>
      rw [hdirectory] at h
      cases h
    | ok directory =>
      rw [hdirectory] at h
      dsimp only at h
      rw [← Except.ok.inj h]
      split
      · exact ⟨_, rfl⟩
      · exact normalizePath_isAbsolute (isAbsolute_join rfl)

/-- The paths of a project are absolute and have only names. -/
structure AbsolutePaths (paths : ProjectPaths) : Prop where
  root : ∃ names, paths.root = absolute names
  inputDir : ∃ names, paths.inputDir = absolute names
  outputDir : ∃ names, paths.outputDir = absolute names
  updateOutputDir : ∃ names, paths.updateOutputDir = absolute names
  cacheDir : ∃ names, paths.cacheDir = absolute names
  reportingDir : ∃ names, paths.reportingDir = absolute names
  vectorDbUri : ∃ names, paths.vectorDbUri = absolute names

variable {paths : ProjectPaths}

theorem resolve_eq_ok {root : String} {config : PathConfig}
    (h : ProjectPaths.resolve env tree links root config = .ok paths) :
    AbsolutePaths paths ∧ paths.validateOutputPathSafety env tree links = .ok () := by
  obtain ⟨path, hroot, h⟩ := bind_eq_ok.mp h
  obtain ⟨_, hvalid, h⟩ := bind_eq_ok.mp h
  obtain rfl := Except.ok.inj h
  obtain ⟨names, rfl⟩ := absoluteNormalized_eq_ok hroot
  exact ⟨⟨⟨names, rfl⟩, resolvePath_absolute .., resolvePath_absolute .., resolvePath_absolute ..,
    resolvePath_absolute .., resolvePath_absolute .., resolvePath_absolute ..⟩, hvalid⟩

/-! ### What is accepted is safe -/

/-- A target that the check against the home directory lets pass is not above it. -/
theorem home_of_rejectHome (hfound : HomeFound env tree links)
    (h : rejectHome env tree links unsafePath message (toPath target) (userHomeDir env) = .ok ()) :
    ∀ location, HomeLies env tree location → ¬ target <:+ location := by
  intro location hlies htarget
  have hvar : ∃ home, userHomeDir env = some home := by
    obtain ⟨home, hhome, -⟩ := hlies
    exact ⟨_, by rw [userHomeDir, hhome]; rfl⟩
  obtain ⟨home, hhome⟩ := hvar
  rw [hhome] at h
  obtain ⟨resolved, hresolved, h⟩ := bind_eq_ok.mp h
  obtain ⟨_, found, hresolution⟩ := resolve_spec hresolved
  rw [hresolution.resolved, rejectAncestor_eq_ok] at h
  have hhome' := hfound location hlies home resolved hhome hresolved found hresolution.resolved
  exact h (htarget.trans hhome')

/-- A path, and what it is resolved to in a list of labelled paths. -/
def ResolvedAs (env : Environment) (tree : LinkTree) (links : ℕ) (path : PathBuf)
    (labelled : PathBuf × String) : Prop :=
  ∃ names linkPolicy resolved, path = absolute names ∧
    resolvePathWithExistingAncestor env tree links path linkPolicy = .ok resolved ∧
    labelled.1 = resolved.resolved

/-- The directories that the output and the vector store are kept apart from. -/
theorem resolvedAs_inputs {inputNames cacheNames reportingNames : Path}
    {input cache reporting : ResolvedPath}
    (hinput : resolvePathFollowingLinks env tree links (absolute inputNames) = .ok input)
    (hcache : resolvePathFollowingLinks env tree links (absolute cacheNames) = .ok cache)
    (hreporting : resolvePathFollowingLinks env tree links (absolute reportingNames) =
      .ok reporting) :
    List.Forall₂ (ResolvedAs env tree links)
      [absolute inputNames, absolute cacheNames, absolute reportingNames]
      [(input.resolved, "input"), (cache.resolved, "cache"), (reporting.resolved, "logs")] :=
  .cons ⟨_, .follow, _, rfl, hinput, rfl⟩ (.cons ⟨_, .follow, _, rfl, hcache, rfl⟩
    (.cons ⟨_, .follow, _, rfl, hreporting, rfl⟩ .nil))

variable (hfound : HomeFound env tree links)
include hfound

/-- The checks that all targets have. -/
theorem SafeTarget.of_checks {rootResolved : ResolvedPath}
    {subject rootMessage filesystemMessage homeMessage : String}
    {apart : List PathBuf} {labelled : List (PathBuf × String)}
    (hroot : resolvePathFollowingLinks env tree links (absolute names) = .ok rootResolved)
    (hapart : List.Forall₂ (ResolvedAs env tree links) apart labelled)
    (hrejectRoot : rejectAncestor unsafePath rootMessage (toPath target) rootResolved.resolved = .ok ())
    (hoverlaps : rejectOverlaps unsafePath subject (toPath target) labelled = .ok ())
    (hfilesystemRoot : rejectFilesystemRoot unsafePath filesystemMessage (toPath target) = .ok ())
    (hhome : rejectHome env tree links unsafePath homeMessage (toPath target) (userHomeDir env) =
      .ok ()) :
    SafeTarget env tree (absolute names) apart target where
  filesystemRoot := rejectFilesystemRoot_eq_ok.mp hfilesystemRoot
  root := by
    obtain ⟨location, hlies, hresolved, -⟩ := resolve_absolute hroot
    rw [hresolved, rejectAncestor_eq_ok] at hrejectRoot
    exact ⟨location, hlies, hrejectRoot⟩
  home := home_of_rejectHome hfound hhome
  apart path hpath := by
    obtain ⟨labelledPath, hlabelled, names', linkPolicy, resolved, rfl, hok, hsame⟩ :=
      forall₂_exists_right hapart hpath
    obtain ⟨location, hlies, hresolved, -⟩ := resolve_absolute hok
    have hnot := rejectOverlaps_eq_ok.mp hoverlaps labelledPath hlabelled
    rw [hsame, hresolved, pathsOverlap_iff] at hnot
    exact ⟨location, hlies, hnot⟩

theorem outputSafe (habsolute : AbsolutePaths paths)
    (h : paths.validateOutputPathSafety env tree links = .ok ()) :
    ∃ output, WriteTarget tree paths.outputDir output ∧
      SafeTarget env tree paths.root [paths.inputDir, paths.cacheDir, paths.reportingDir] output := by
  obtain ⟨⟨root, hroot⟩, ⟨input, hinput⟩, ⟨output, houtput⟩, -, ⟨cache, hcache⟩,
    ⟨reporting, hreporting⟩, -⟩ := habsolute
  unfold ProjectPaths.validateOutputPathSafety ProjectPaths.validateOutputPathSafetyWithHome at h
  rw [hroot, hinput, houtput, hcache, hreporting] at h ⊢
  obtain ⟨outputResolved, houtputOk, h⟩ := bind_eq_ok.mp h
  obtain ⟨rootResolved, hrootOk, h⟩ := bind_eq_ok.mp h
  obtain ⟨inputResolved, hinputOk, h⟩ := bind_eq_ok.mp h
  obtain ⟨cacheResolved, hcacheOk, h⟩ := bind_eq_ok.mp h
  obtain ⟨reportingResolved, hreportingOk, h⟩ := bind_eq_ok.mp h
  obtain ⟨⟨⟩, hrejectRoot, h⟩ := bind_eq_ok.mp h
  obtain ⟨⟨⟩, hoverlaps, h⟩ := bind_eq_ok.mp h
  obtain ⟨⟨⟩, hfilesystemRoot, hhome⟩ := bind_eq_ok.mp h
  obtain ⟨target, -, htarget, hwrite⟩ := resolve_absolute houtputOk
  rw [htarget] at hrejectRoot hoverlaps hfilesystemRoot hhome
  have hapart := resolvedAs_inputs hinputOk hcacheOk hreportingOk
  exact ⟨target, hwrite rfl,
    .of_checks hfound hrootOk hapart hrejectRoot hoverlaps hfilesystemRoot hhome⟩

theorem updateSafe (habsolute : AbsolutePaths paths)
    (h : paths.validateUpdateOutputPathSafety env tree links = .ok ()) :
    ∃ update, WriteTarget tree paths.updateOutputDir update ∧
      SafeTarget env tree paths.root [paths.inputDir, paths.outputDir, paths.cacheDir,
        paths.reportingDir, paths.vectorDbUri] update := by
  obtain ⟨⟨root, hroot⟩, ⟨input, hinput⟩, ⟨output, houtput⟩, ⟨update, hupdate⟩, ⟨cache, hcache⟩,
    ⟨reporting, hreporting⟩, ⟨vector, hvector⟩⟩ := habsolute
  unfold ProjectPaths.validateUpdateOutputPathSafety
    ProjectPaths.validateUpdateOutputPathSafetyWithHome at h
  rw [hroot, hinput, houtput, hupdate, hcache, hreporting, hvector] at h ⊢
  obtain ⟨updateResolved, hupdateOk, h⟩ := bind_eq_ok.mp h
  obtain ⟨rootResolved, hrootOk, h⟩ := bind_eq_ok.mp h
  obtain ⟨inputResolved, hinputOk, h⟩ := bind_eq_ok.mp h
  obtain ⟨outputResolved, houtputOk, h⟩ := bind_eq_ok.mp h
  obtain ⟨cacheResolved, hcacheOk, h⟩ := bind_eq_ok.mp h
  obtain ⟨reportingResolved, hreportingOk, h⟩ := bind_eq_ok.mp h
  obtain ⟨vectorResolved, hvectorOk, h⟩ := bind_eq_ok.mp h
  obtain ⟨⟨⟩, hrejectRoot, h⟩ := bind_eq_ok.mp h
  obtain ⟨⟨⟩, hoverlaps, h⟩ := bind_eq_ok.mp h
  obtain ⟨⟨⟩, hfilesystemRoot, hhome⟩ := bind_eq_ok.mp h
  obtain ⟨target, -, htarget, hwrite⟩ := resolve_absolute hupdateOk
  rw [htarget] at hrejectRoot hoverlaps hfilesystemRoot hhome
  have hapart : List.Forall₂ (ResolvedAs env tree links)
      [absolute input, absolute output, absolute cache, absolute reporting, absolute vector]
      [(inputResolved.resolved, "input"), (outputResolved.resolved, "output"),
        (cacheResolved.resolved, "cache"), (reportingResolved.resolved, "logs"),
        (vectorResolved.resolved, "vector DB")] :=
    .cons ⟨input, .follow, _, rfl, hinputOk, rfl⟩ (.cons ⟨output, .reject, _, rfl, houtputOk, rfl⟩
      (.cons ⟨cache, .follow, _, rfl, hcacheOk, rfl⟩
        (.cons ⟨reporting, .follow, _, rfl, hreportingOk, rfl⟩
          (.cons ⟨vector, .reject, _, rfl, hvectorOk, rfl⟩ .nil))))
  exact ⟨target, hwrite rfl,
    .of_checks hfound hrootOk hapart hrejectRoot hoverlaps hfilesystemRoot hhome⟩

theorem vectorSafe (habsolute : AbsolutePaths paths)
    (h : paths.validateVectorPathSafety env tree links = .ok ()) :
    ∃ vector, WriteTarget tree paths.vectorDbUri vector ∧
      SafeTarget env tree paths.root [paths.inputDir, paths.cacheDir, paths.reportingDir] vector ∧
      ∃ output, tree.Lies [] paths.outputDir output ∧ ¬ vector <:+ output := by
  obtain ⟨⟨root, hroot⟩, ⟨input, hinput⟩, ⟨output, houtput⟩, -, ⟨cache, hcache⟩,
    ⟨reporting, hreporting⟩, ⟨vector, hvector⟩⟩ := habsolute
  unfold ProjectPaths.validateVectorPathSafety ProjectPaths.validateVectorPathSafetyWithHome at h
  rw [hroot, hinput, houtput, hcache, hreporting, hvector] at h ⊢
  obtain ⟨vectorResolved, hvectorOk, h⟩ := bind_eq_ok.mp h
  obtain ⟨rootResolved, hrootOk, h⟩ := bind_eq_ok.mp h
  obtain ⟨outputResolved, houtputOk, h⟩ := bind_eq_ok.mp h
  obtain ⟨inputResolved, hinputOk, h⟩ := bind_eq_ok.mp h
  obtain ⟨cacheResolved, hcacheOk, h⟩ := bind_eq_ok.mp h
  obtain ⟨reportingResolved, hreportingOk, h⟩ := bind_eq_ok.mp h
  obtain ⟨⟨⟩, hfilesystemRoot, h⟩ := bind_eq_ok.mp h
  obtain ⟨⟨⟩, hrejectRoot, h⟩ := bind_eq_ok.mp h
  obtain ⟨⟨⟩, hrejectOutput, h⟩ := bind_eq_ok.mp h
  obtain ⟨⟨⟩, hoverlaps, hhome⟩ := bind_eq_ok.mp h
  obtain ⟨target, -, htarget, hwrite⟩ := resolve_absolute hvectorOk
  obtain ⟨outputAt, houtputLies, houtputAt, -⟩ := resolve_absolute houtputOk
  rw [htarget] at hrejectRoot hrejectOutput hoverlaps hfilesystemRoot hhome
  rw [houtputAt, rejectAncestor_eq_ok] at hrejectOutput
  have hapart := resolvedAs_inputs hinputOk hcacheOk hreportingOk
  exact ⟨target, hwrite rfl,
    .of_checks hfound hrootOk hapart hrejectRoot hoverlaps hfilesystemRoot hhome,
    outputAt, houtputLies, hrejectOutput⟩

/-- When the home directory is found, what is accepted is safe. -/
theorem pathsSafe_of_homeFound : PathsSafe env tree links := by
  intro root config paths h
  obtain ⟨habsolute, hvalid⟩ := resolve_eq_ok h
  exact ⟨outputSafe hfound habsolute hvalid, updateSafe hfound habsolute,
    vectorSafe hfound habsolute⟩

end GraphLoom.Project
