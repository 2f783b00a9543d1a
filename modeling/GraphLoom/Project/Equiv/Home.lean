import GraphLoom.Project.Equiv.Safety
import Mathlib.Data.Set.Finite.Basic

/-!
## The home directory

`pathsSafe_iff`: what is accepted is safe exactly when the home directory is found where it lies.
Where it is not found, a configuration that writes to it is accepted (`accepted_of_not_homeFound`):
the root of the project is the root of the file system, and the other paths are one that is not
there.
-/

namespace GraphLoom.Project

open Foundation LinkTree

variable {env : Environment} {tree : LinkTree} {links : ℕ} {path : PathBuf} {linkPolicy : LinkPolicy}
  {location target : Path}

/-! ### Resolving locations without links -/

theorem existingLoop_clear {rest : List String} : ∀ {done : List String},
    tree.walk links [] (absolute done) = .ok done.reverse →
    tree.entry done.reverse = some .directory → Clear tree (done ++ rest).reverse →
    ∃ found location, existingLoop tree links path linkPolicy (absolute done) (some (absolute done))
        true (rest.map .normal) = .ok (some (absolute found)) ∧
      tree.walk links [] (absolute found) = .ok location := by
  induction rest with
  | nil => exact fun hwalk _ _ => ⟨_, _, rfl, hwalk⟩
  | cons name rest ih =>
    intro done hwalk hdirectory hclear
    have hsplit : (done ++ name :: rest).reverse = rest.reverse ++ name :: done.reverse := by simp
    rw [hsplit] at hclear
    have hreaches : componentReachesQueryablePath (.normal name) true = (true, true) := rfl
    rw [List.map_cons, existingLoop]
    simp only [push_normal, hreaches, not_true, if_false]
    rw [symlinkMetadata_snoc hwalk hdirectory]
    cases hentry : tree.entry (name :: done.reverse) with
    | none => exact ⟨done, done.reverse, rfl, hwalk⟩
    | some entry =>
      have hlink : ∀ target, entry ≠ .symlink target := by
        rintro target rfl
        exact hclear.noLink _ (List.suffix_append _ _) target hentry
      have hnot : isSymlink entry = false := by
        cases entry with
        | symlink target => exact absurd rfl (hlink target)
        | file => rfl
        | directory => rfl
      have hsnoc : absolute done ++ [Component.normal name] = absolute (done ++ [name]) := by
        rw [absolute_append, List.map_singleton]
      have hwalk' : tree.walk links [] (absolute (done ++ [name])) = .ok (done ++ [name]).reverse := by
        rw [← hsnoc, List.reverse_append]
        exact walk_snoc hwalk hdirectory hentry hlink
      dsimp only
      rw [if_neg (by simp [hnot]), hsnoc]
      by_cases hrest : rest = []
      · subst hrest
        rw [if_pos (by simp)]
        exact ⟨_, _, rfl, hwalk'⟩
      · -- what has a name below it is no file
        have hfile : entry ≠ .file := by
          rintro rfl
          refine hclear.noFile (name :: done.reverse) (List.suffix_append _ _) (fun heq => ?_) hentry
          have hlength := congrArg List.length heq
          have hpos := List.length_pos_iff.mpr hrest
          simp only [List.length_append, List.length_reverse, List.length_cons] at hlength
          omega
        have hdir : entry = .directory := by
          cases entry with
          | symlink target => exact absurd rfl (hlink target)
          | file => exact absurd rfl hfile
          | directory => rfl
        rw [if_neg (by simpa using hrest), pathComponentIsDirectory, if_pos hdir]
        dsimp only
        refine ih hwalk' ?_ ?_
        · rw [List.reverse_append, List.reverse_singleton, List.singleton_append, hentry, hdir]
        · rw [List.append_assoc, List.singleton_append, hsplit]
          exact hclear

/-- A location without links is resolved to itself. -/
theorem resolve_clear (h : Clear tree location) (linkPolicy : LinkPolicy) :
    ∃ resolved, resolvePathWithExistingAncestor env tree links (toPath location) linkPolicy =
        .ok resolved ∧ resolved.resolved = toPath location := by
  have hroot : tree.walk links [] (absolute []) = .ok ([] : List String).reverse := by
    cases links with
    | zero => rfl
    | succ links => rfl
  have hnames : Clear tree ([] ++ location.reverse).reverse := by simpa using h
  obtain ⟨found, ancestor, hloop, hwalk⟩ :=
    @existingLoop_clear tree links (toPath location) linkPolicy _ _ hroot rfl hnames
  rw [← existingLoop_root] at hloop
  obtain ⟨resolved, hok⟩ : ∃ resolved,
      resolvePathWithExistingAncestor env tree links (toPath location) linkPolicy = .ok resolved := by
    unfold resolvePathWithExistingAncestor
    rw [toPath_eq] at hloop ⊢
    rw [absoluteLexical_absolute]
    simp only [bind, Except.bind, hloop, Option.getD_some, LinkTree.canonicalize, hwalk]
    exact ⟨_, rfl⟩
  rw [toPath_eq] at hok ⊢
  obtain ⟨location', hlies, hresolved, -⟩ := resolve_absolute hok
  have hsame : location' = location := hlies.unique (by rw [← toPath_eq]; exact h.lies)
  exact ⟨resolved, hok, by rw [hresolved, hsame, toPath_eq]⟩

/-! ### A configuration that reaches the home directory -/

/-- The text of a location. -/
def textOf (location : Path) : String := "/" ++ "/".intercalate location.reverse

theorem resolvePath_textOf (hnames : ∀ name ∈ location, FileName name) (h : location ≠ [])
    (root : PathBuf) : resolvePath root (textOf location) = toPath location := by
  have hcomponents : components (textOf location) = toPath location :=
    components_slash_intercalate (fun name hname => hnames name (List.mem_reverse.mp hname))
      (by simpa using h)
  unfold resolvePath
  rw [hcomponents]
  exact normalizePath_absolute

/-- A name that is neither in the root of the file system nor in a location. -/
theorem exists_fresh_name (tree : LinkTree) (location : Path) :
    ∃ name, FileName name ∧ tree.entry [name] = none ∧ name ∉ location := by
  let sample : ℕ → String := fun n => String.ofList (List.replicate (n + 1) 'x')
  have hinjective : Function.Injective sample := by
    intro n m h
    have hlength := congrArg (fun text => text.toList.length) h
    simpa [sample] using hlength
  let taken : Finset String := tree.entries.keys.image (fun path => path.headD "") ∪ location.toFinset
  obtain ⟨name, ⟨n, rfl⟩, hname⟩ :=
    (Set.infinite_range_of_injective hinjective).exists_notMem_finset taken
  rw [Finset.mem_union, not_or, List.mem_toFinset] at hname
  have hsample : ∀ c ∈ (sample n).toList, c = 'x' := by
    intro c hc
    rw [String.toList_ofList] at hc
    exact List.eq_of_mem_replicate hc
  refine ⟨sample n, ⟨⟨?_, ?_⟩, ?_, ?_⟩, ?_, hname.2⟩
  · intro heq
    have hlength := congrArg (fun text => text.toList.length) heq
    simp [sample] at hlength
  · intro hslash
    exact absurd (hsample _ hslash) (by decide)
  · intro heq
    exact absurd (hsample '.' (by rw [heq]; decide)) (by decide)
  · intro heq
    exact absurd (hsample '.' (by rw [heq]; decide)) (by decide)
  · unfold LinkTree.entry
    rw [if_neg (List.cons_ne_nil _ _), Finmap.lookup_eq_none]
    intro hmem
    refine hname.1 (Finset.mem_image.mpr ⟨[sample n], Finmap.mem_keys.mpr hmem, rfl⟩)

/-- When the checks find the home directory elsewhere, they accept a configuration that writes to
where it lies. -/
theorem accepted_of_not_homeFound (hnames : ∀ name ∈ location, FileName name)
    (hclear : Clear tree location) {home : PathBuf} {resolved : ResolvedPath} {found : Path}
    (hhome : userHomeDir env = some home)
    (hresolved : resolvePathFollowingLinks env tree links home = .ok resolved)
    (hfound : resolved.resolved = toPath found) (hnot : ¬ location <:+ found) :
    ∃ root config paths, ProjectPaths.resolve env tree links root config = .ok paths ∧
      paths.outputDir = toPath location := by
  have hne : location ≠ [] := by
    rintro rfl
    exact hnot (List.nil_suffix)
  obtain ⟨name, hname, hmissing, hfresh⟩ := exists_fresh_name tree location
  have hother : ∀ part ∈ [name], FileName part := by
    intro part hpart
    rw [List.mem_singleton.mp hpart]
    exact hname
  have hclear' : Clear tree [name] := Clear.nil.cons (by simp) (by simp [hmissing])
  obtain ⟨outputResolved, houtput, houtputAt⟩ := @resolve_clear env tree links _ hclear .reject
  obtain ⟨rootResolved, hroot, hrootAt⟩ := @resolve_clear env tree links _ .nil .follow
  obtain ⟨otherResolved, hotherOk, hotherAt⟩ := @resolve_clear env tree links _ hclear' .follow
  have hnormalized : absoluteNormalized env tree links "/" = .ok (toPath []) := by
    have habsolute : isAbsolute "/" := by decide
    have hkernel : kernelComponents "/" = [.rootDir, .curDir, .curDir] := by decide
    have hwalk : tree.canonicalize links [.rootDir, .curDir, .curDir] = .ok [] := by
      cases links with
      | zero => rfl
      | succ links => rfl
    unfold absoluteNormalized
    rw [if_pos habsolute, hkernel]
    dsimp only
    rw [hwalk]
  have hoverlap : ¬ pathsOverlap (toPath location) (toPath [name]) := by
    rw [pathsOverlap_iff]
    rintro (habove | habove)
    · rcases List.suffix_cons_iff.mp habove with rfl | habove
      · exact hfresh (List.mem_cons_self ..)
      · exact hne (List.eq_nil_of_suffix_nil habove)
    · exact hfresh (habove.subset (List.mem_cons_self ..))
  have habove : ¬ location <:+ [] := fun habove => hne (List.eq_nil_of_suffix_nil habove)
  let paths : ProjectPaths :=
    ⟨toPath [], toPath [name], toPath location, toPath [name], toPath [name], toPath [name],
      toPath [name]⟩
  have hvalid : paths.validateOutputPathSafety env tree links = .ok () := by
    unfold ProjectPaths.validateOutputPathSafety ProjectPaths.validateOutputPathSafetyWithHome
    simp only [paths, resolvePathRejectingLinks, resolvePathFollowingLinks, houtput, hroot, hotherOk,
      bind, Except.bind]
    rw [houtputAt, hrootAt, hotherAt, rejectAncestor_eq_ok.mpr habove]
    dsimp only
    rw [rejectOverlaps_eq_ok.mpr (by simpa using hoverlap)]
    dsimp only
    rw [rejectFilesystemRoot_eq_ok.mpr hne]
    dsimp only
    rw [hhome]
    unfold rejectHome
    dsimp only
    rw [hresolved]
    simp only [bind, Except.bind]
    rw [hfound, rejectAncestor_eq_ok.mpr hnot]
  refine ⟨"/", ⟨textOf [name], textOf location, textOf [name], textOf [name], textOf [name],
    textOf [name]⟩, paths, ?_, rfl⟩
  unfold ProjectPaths.resolve
  rw [hnormalized]
  simp only [bind, Except.bind]
  rw [resolvePath_textOf hnames hne, resolvePath_textOf hother (List.cons_ne_nil _ _)]
  change (paths.validateOutputPathSafety env tree links >>= fun _ => .ok paths) = .ok paths
  rw [hvalid]
  rfl

/-- The home directory lies where there are no links, and its location has names of files. -/
theorem clear_of_homeLies (h : HomeLies env tree location) :
    Clear tree location ∧ ∀ name ∈ location, FileName name := by
  obtain ⟨home, -, hlies⟩ := h
  have hnil : ∀ name ∈ ([] : Path), FileName name := fun _ hname => absurd hname List.not_mem_nil
  split at hlies
  · exact ⟨hlies.clear .nil, hlies.fileName hnil fun _ => fileName_of_mem_kernelComponents⟩
  · obtain ⟨directory, hdirectory, hlies⟩ := hlies
    refine ⟨hlies.clear .nil, hlies.fileName hnil fun name hname => ?_⟩
    rcases List.mem_append.mp hname with hname | hname
    · have hmem : name ∈ directory := by simpa [toPath] using hname
      exact env.names directory hdirectory name hmem
    · exact fileName_of_mem_kernelComponents hname

/-- **What is accepted is safe exactly when the home directory is found where it lies.** -/
theorem pathsSafe_iff (env : Environment) (tree : LinkTree) (links : ℕ) :
    PathsSafe env tree links ↔ HomeFound env tree links := by
  constructor
  · intro hsafe location hlies home resolved hhome hresolved found hfound
    by_contra hnot
    obtain ⟨hclear, hnames⟩ := clear_of_homeLies hlies
    obtain ⟨root, config, paths, hok, houtput⟩ :=
      accepted_of_not_homeFound hnames hclear hhome hresolved hfound hnot
    obtain ⟨⟨output, hwrite, htarget⟩, -⟩ := hsafe root config paths hok
    have hsame : output = location := toPath_injective (hwrite.written.symm.trans houtput)
    rw [hsame] at htarget
    exact htarget.home location hlies (List.suffix_refl _)
  · exact pathsSafe_of_homeFound

/-! ### A home directory that is not found -/

/-- The home directories are in `/usr/home`, with a link to them, and there is one beside them. -/
def linkedHomeTree : LinkTree where
  entries := ((((∅ : Finmap fun _ : Path => Entry).insert ["usr"] .directory).insert
    ["home"] (.symlink "usr/home")).insert ["home", "usr"] .directory).insert
    ["alice", "usr"] .directory
  parent := by decide

def linkedHomeEnvironment : Environment where
  currentDir := .ok []
  var name := if name = "HOME" then some "/home/../alice" else none
  names directory h name hname := by
    rw [← Except.ok.inj h] at hname
    exact absurd hname List.not_mem_nil

/-- The output is written to the home directory. -/
def linkedHomeConfig : PathConfig :=
  ⟨"input", "/usr/alice", "update", "cache", "logs", "vectors"⟩

def linkedHomePaths : ProjectPaths :=
  ⟨toPath ["p"], toPath ["input", "p"], toPath ["alice", "usr"], toPath ["update", "p"],
    toPath ["cache", "p"], toPath ["logs", "p"], toPath ["vectors", "p"]⟩

/-- The home directory `/home/../alice` lies at `/usr/alice`, and is taken for `/alice`. -/
theorem linkedHome_accepted :
    ProjectPaths.resolve linkedHomeEnvironment linkedHomeTree 40 "/p" linkedHomeConfig =
        .ok linkedHomePaths ∧
      HomeLies linkedHomeEnvironment linkedHomeTree ["alice", "usr"] ∧
      ¬ PathsSafe linkedHomeEnvironment linkedHomeTree 40 := by
  have hresolve : ProjectPaths.resolve linkedHomeEnvironment linkedHomeTree 40 "/p"
      linkedHomeConfig = .ok linkedHomePaths := by
    decide +kernel
  have hlies : HomeLies linkedHomeEnvironment linkedHomeTree ["alice", "usr"] := by
    have hwalk : linkedHomeTree.walk 40 [] (kernelComponents "/home/../alice") =
        .ok ["alice", "usr"] := by
      decide +kernel
    refine ⟨"/home/../alice", rfl, ?_⟩
    rw [if_pos (by decide), ← List.append_nil (kernelComponents "/home/../alice")]
    exact .of_walk hwalk (.nil _)
  refine ⟨hresolve, hlies, fun hsafe => ?_⟩
  obtain ⟨⟨output, hwrite, htarget⟩, -⟩ := hsafe _ _ _ hresolve
  have hsame : output = ["alice", "usr"] := (toPath_injective hwrite.written).symm
  rw [hsame] at htarget
  exact htarget.home _ hlies (List.suffix_refl _)

end GraphLoom.Project
