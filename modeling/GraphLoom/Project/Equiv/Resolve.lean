import GraphLoom.Project.Paths

/-!
## Resolving paths

`resolve_spec`: a path that is resolved lies at the location that it is resolved to, whether it
exists or not; when links are rejected there are none on the way, and it lies where it is written.

A lexical path is absolute and has only names (`absolute`).  The loop over its components keeps how
many of the names exist (`ExistingNames`).
-/

namespace GraphLoom.Project

open Foundation

/-- The absolute path of names. -/
def absolute (names : List String) : PathBuf := .rootDir :: names.map .normal

variable {env : Environment} {tree : LinkTree} {links : ℕ} {names : List String} {path : PathBuf}
  {linkPolicy : LinkPolicy}

theorem toPath_eq (location : Path) : toPath location = absolute location.reverse := rfl

theorem absolute_append (names names' : List String) :
    absolute (names ++ names') = absolute names ++ names'.map .normal := by
  simp [absolute]

/-! ### Lexical paths -/

theorem push_normal (name : String) : PathBuf.push path (.normal name) = path ++ [.normal name] := by
  simp [PathBuf.push]

theorem pop_absolute (names : List String) :
    PathBuf.pop (absolute names) = absolute names.dropLast := by
  rcases List.eq_nil_or_concat names with rfl | ⟨front, last, rfl⟩
  · rfl
  · rw [List.concat_eq_append, List.dropLast_concat, absolute_append]
    unfold PathBuf.pop
    rw [List.map_singleton, List.getLast?_concat, if_neg (by simp), List.dropLast_concat]

/-- Behind the root, normalizing gives an absolute path. -/
theorem normalizeLoop_absolute (comps : List Component) :
    ∀ names, ∃ names', normalizeLoop (absolute names) comps = absolute names' := by
  induction comps with
  | nil => exact fun names => ⟨names, rfl⟩
  | cons component comps ih =>
    intro names
    cases component with
    | rootDir => exact ih []
    | curDir => exact ih names
    | parentDir =>
      unfold normalizeLoop
      rw [pop_absolute]
      exact ih _
    | normal name =>
      unfold normalizeLoop
      rw [push_normal, show absolute names ++ [.normal name] = absolute (names ++ [name]) by
        rw [absolute_append, List.map_singleton]]
      exact ih _

theorem normalizePath_isAbsolute (h : PathBuf.isAbsolute path) :
    ∃ names, normalizePath path = absolute names := by
  cases path with
  | nil => cases h
  | cons component rest =>
    obtain rfl : component = .rootDir := by simpa [PathBuf.isAbsolute] using h
    exact normalizeLoop_absolute rest []

theorem normalizeLoop_normal (names : List String) :
    ∀ path, normalizeLoop path (names.map .normal) = path ++ names.map .normal := by
  induction names with
  | nil => simp [normalizeLoop]
  | cons name names ih =>
    intro path
    rw [List.map_cons, normalizeLoop, push_normal, ih, List.append_assoc, List.singleton_append]
    · simp
    · simp

@[simp]
theorem normalizePath_absolute : normalizePath (absolute names) = absolute names :=
  normalizeLoop_normal names [.rootDir]

theorem isAbsolute_absolute : PathBuf.isAbsolute (absolute names) := rfl

theorem absoluteLexical_absolute :
    absoluteLexical env (absolute names) = .ok (absolute names) := by
  unfold absoluteLexical absoluteUnresolved
  rw [if_pos isAbsolute_absolute]
  simp [bind, Except.bind]

theorem isAbsolute_join {base other : PathBuf} (h : PathBuf.isAbsolute base) :
    PathBuf.isAbsolute (PathBuf.join base other) := by
  unfold PathBuf.join
  split
  · assumption
  · split
    · rename_i hnil
      rw [hnil] at h
      cases h
    · cases base with
      | nil => cases h
      | cons component rest => exact h

/-- A lexical path is absolute. -/
theorem absoluteLexical_eq_ok {lexical : PathBuf} (h : absoluteLexical env path = .ok lexical) :
    ∃ names, lexical = absolute names := by
  obtain ⟨unresolved, hunresolved, heq⟩ := bind_eq_ok.mp h
  obtain rfl := Except.ok.inj heq
  refine normalizePath_isAbsolute ?_
  unfold absoluteUnresolved at hunresolved
  split at hunresolved
  · rename_i habsolute
    rw [← Except.ok.inj hunresolved]
    exact habsolute
  · cases hdirectory : env.currentDir with
    | error source =>
      rw [hdirectory] at hunresolved
      cases hunresolved
    | ok directory =>
      rw [hdirectory] at hunresolved
      rw [← Except.ok.inj hunresolved]
      exact isAbsolute_join rfl

/-! ### The loop -/

/-- Of the names behind an existing path some exist and the rest is missing; when links are
rejected, those that exist are none. -/
structure ExistingNames (tree : LinkTree) (links : ℕ) (linkPolicy : LinkPolicy)
    (done found missing : List String) : Prop where
  missing : ∀ name rest, missing = name :: rest →
    tree.symlinkMetadata links (absolute (done ++ found) ++ [.normal name]) = .error .notFound
  links : linkPolicy = .reject → ∀ front name back, found = front ++ name :: back →
    ∃ entry, tree.symlinkMetadata links (absolute (done ++ front) ++ [.normal name]) = .ok entry ∧
      ∀ target, entry ≠ .symlink target

theorem not_isSymlink {entry : Entry} (h : ¬ isSymlink entry) : ∀ target, entry ≠ .symlink target := by
  rintro target rfl
  exact h rfl

theorem existingLoop_spec {rest : List String} : ∀ {done : List String} {existing : Option PathBuf},
    existingLoop tree links path linkPolicy (absolute done) (some (absolute done)) true
        (rest.map .normal) = .ok existing →
      ∃ found missing, rest = found ++ missing ∧ existing = some (absolute (done ++ found)) ∧
        ExistingNames tree links linkPolicy done found missing := by
  induction rest with
  | nil =>
    intro done existing h
    refine ⟨[], [], rfl, ?_, ?_, ?_⟩
    · rw [List.append_nil]
      exact (Except.ok.inj h).symm
    · exact fun name rest hmissing => nomatch hmissing
    · intro _ front name back hfound
      simp at hfound
  | cons name rest ih =>
    intro done existing h
    rw [List.map_cons, existingLoop] at h
    have hreaches : componentReachesQueryablePath (.normal name) true = (true, true) := rfl
    have hsnoc : absolute done ++ [Component.normal name] = absolute (done ++ [name]) := by
      rw [absolute_append, List.map_singleton]
    simp only [push_normal, hreaches, not_true, if_false] at h
    cases hentry : tree.symlinkMetadata links (absolute done ++ [.normal name]) with
    | error source =>
      rw [hentry] at h
      have hstop : source = .notFound ∧ existing = some (absolute done) := by
        cases source with
        | notFound => exact ⟨rfl, (Except.ok.inj h).symm⟩
        | alreadyExists => cases h
        | notADirectory => cases h
        | isADirectory => cases h
        | directoryNotEmpty => cases h
        | other => cases h
      obtain ⟨rfl, rfl⟩ := hstop
      refine ⟨[], name :: rest, rfl, by rw [List.append_nil], ?_, ?_⟩
      · intro name' rest' hmissing
        obtain ⟨rfl, rfl⟩ := List.cons.inj hmissing
        rw [List.append_nil]
        exact hentry
      · intro _ front name' back hfound
        simp at hfound
    | ok entry =>
      rw [hentry] at h
      dsimp only at h
      split at h
      · cases h
      rename_i hpolicy
      -- the rest of the loop, with one more name that exists
      have hnext : existingLoop tree links path linkPolicy (absolute (done ++ [name]))
          (some (absolute (done ++ [name]))) true (rest.map .normal) = .ok existing := by
        rw [hsnoc] at h
        split at h
        · exact h
        · split at h
          · cases h
          · cases h
          · exact h
      obtain ⟨found, missing, hrest, hexisting, hnames⟩ := ih hnext
      refine ⟨name :: found, missing, by rw [hrest, List.cons_append], ?_, ?_, ?_⟩
      · rw [hexisting, List.append_assoc, List.singleton_append]
      · intro name' rest' hmissing
        have hnot := hnames.missing name' rest' hmissing
        rwa [List.append_assoc, List.singleton_append] at hnot
      · intro hreject front name' back hfound
        cases front with
        | nil =>
          obtain ⟨rfl, -⟩ := List.cons.inj hfound
          refine ⟨entry, by rw [List.append_nil]; exact hentry, not_isSymlink fun hlink => ?_⟩
          exact hpolicy ⟨hreject, hlink⟩
        | cons first front =>
          obtain ⟨rfl, hback⟩ := List.cons.inj hfound
          have hnot := hnames.links hreject front name' back hback
          rwa [List.append_assoc, List.singleton_append] at hnot

/-- The root of a path exists. -/
theorem existingLoop_root (names : List String) :
    existingLoop tree links path linkPolicy [] none false (absolute names) =
      existingLoop tree links path linkPolicy (absolute []) (some (absolute [])) true
        (names.map .normal) := by
  have hroot : tree.symlinkMetadata links [.rootDir] = .ok .directory := by
    unfold LinkTree.symlinkMetadata LinkTree.metadata
    cases links with
    | zero => rfl
    | succ links => rfl
  have hpush : PathBuf.push [] .rootDir = [.rootDir] := rfl
  rw [absolute, existingLoop]
  simp only [componentReachesQueryablePath, hpush, hroot, if_true, isSymlink,
    pathComponentIsDirectory, not_true, if_false, Bool.false_eq_true, and_false]
  split
  · rfl
  · rfl

/-- The loop over a whole path. -/
theorem existingLoop_absolute {existing : Option PathBuf}
    (h : existingLoop tree links path linkPolicy [] none false (absolute names) = .ok existing) :
    ∃ found missing, names = found ++ missing ∧ existing = some (absolute found) ∧
      ExistingNames tree links linkPolicy [] found missing := by
  rw [existingLoop_root] at h
  obtain ⟨found, missing, hnames, hexisting, hspec⟩ := existingLoop_spec h
  exact ⟨found, missing, hnames, hexisting, hspec⟩

/-! ### Where a path lies -/

/-- Names that exist and are no links lie where they are written. -/
theorem walk_found {found missing : List String}
    (h : ExistingNames tree links .reject [] found missing) :
    tree.walk links [] (absolute found) = .ok found.reverse ∧
      ∀ above, above <:+ found.reverse → ∀ target, tree.entry above ≠ some (.symlink target) := by
  induction found using List.reverseRecOn generalizing missing with
  | nil =>
    constructor
    · cases links with
      | zero => rfl
      | succ links => rfl
    · intro above habove target
      rw [List.eq_nil_of_suffix_nil habove]
      simp
  | append_singleton found name ih =>
    obtain ⟨entry, hentry, hlink⟩ := h.links rfl found name [] rfl
    have hfront : ExistingNames tree links .reject [] found [] := by
      constructor
      · exact fun _ _ hmissing => nomatch hmissing
      · intro hreject front name' back hfound
        exact h.links hreject front name' (back ++ [name]) (by rw [hfound]; simp)
    obtain ⟨hwalk, hnone⟩ := ih hfront
    obtain ⟨directory, hwalk', hdirectory, hname⟩ := LinkTree.symlinkMetadata_snoc_eq_ok hentry
    rw [List.nil_append, hwalk] at hwalk'
    obtain rfl := Except.ok.inj hwalk'
    constructor
    · rw [absolute_append, List.reverse_append]
      exact LinkTree.walk_snoc hwalk hdirectory hname hlink
    · intro above habove target
      rw [List.reverse_append, List.reverse_singleton, List.singleton_append,
        List.suffix_cons_iff] at habove
      rcases habove with rfl | habove
      · rw [hname]
        exact fun heq => hlink target (Option.some.inj heq)
      · exact hnone above habove target

theorem stripBase_absolute (found missing : List String) :
    PathBuf.stripBase (absolute (found ++ missing)) (absolute found) =
      some (missing.map .normal) := by
  unfold PathBuf.stripBase
  rw [absolute_append, if_pos (by simp), List.drop_left]

theorem join_normal {base : PathBuf} (hbase : base ≠ []) (names : List String) :
    PathBuf.join base (names.map .normal) = base ++ names.map .normal := by
  unfold PathBuf.join
  rw [if_neg, if_neg hbase, List.filter_eq_self.mpr]
  · intro component hcomponent
    obtain ⟨name, -, rfl⟩ := List.mem_map.mp hcomponent
    simp
  · cases names with
    | nil => simp [PathBuf.isAbsolute]
    | cons name names => simp [PathBuf.isAbsolute]

/-- What a resolved path says about where the path lies. -/
structure Resolution (env : Environment) (tree : LinkTree) (path : PathBuf) (linkPolicy : LinkPolicy)
    (resolved : ResolvedPath) (names : List String) (location : Path) : Prop where
  lexical : absoluteLexical env path = .ok (absolute names)
  lies : tree.Lies [] (absolute names) location
  resolved : resolved.resolved = toPath location
  /-- Without links the path lies where it is written. -/
  written : linkPolicy = .reject → location = names.reverse ∧
    ∀ above, above <:+ location → ∀ target, tree.entry above ≠ some (.symlink target)

/-- **A path lies at the location that it is resolved to.** -/
theorem resolve_spec {resolved : ResolvedPath}
    (h : resolvePathWithExistingAncestor env tree links path linkPolicy = .ok resolved) :
    ∃ names location, Resolution env tree path linkPolicy resolved names location := by
  obtain ⟨lexical, hlexical, h⟩ := bind_eq_ok.mp h
  obtain ⟨existing, hexisting, h⟩ := bind_eq_ok.mp h
  obtain ⟨names, rfl⟩ := absoluteLexical_eq_ok hlexical
  obtain ⟨found, missing, rfl, rfl, hnames⟩ := existingLoop_absolute hexisting
  dsimp only at h
  rw [Option.getD_some, stripBase_absolute, Option.getD_some] at h
  cases hwalk : tree.canonicalize links (absolute found) with
  | error source =>
    rw [hwalk] at h
    cases h
  | ok ancestor =>
    rw [hwalk] at h
    have hresolved : resolved.resolved = toPath (missing.reverse ++ ancestor) := by
      rw [← Except.ok.inj h]
      dsimp only
      rw [join_normal (by simp [toPath]), toPath_eq, ← absolute_append, normalizePath_absolute,
        toPath_eq, List.reverse_append, List.reverse_reverse]
    have hlies : tree.Lies [] (absolute (found ++ missing)) (missing.reverse ++ ancestor) := by
      rw [absolute_append]
      refine .of_walk hwalk ?_
      cases missing with
      | nil => exact .nil _
      | cons name rest =>
        have hnot := hnames.missing name rest rfl
        rw [List.nil_append] at hnot
        obtain ⟨hdirectory, hnone⟩ := LinkTree.symlinkMetadata_snoc_notFound hnot hwalk
        exact .missing hdirectory hnone
    refine ⟨found ++ missing, missing.reverse ++ ancestor, hlexical, hlies, hresolved, ?_⟩
    rintro rfl
    obtain ⟨hfound, hnolink⟩ := walk_found hnames
    obtain rfl : ancestor = found.reverse := Except.ok.inj (hwalk.symm.trans hfound)
    refine ⟨by rw [List.reverse_append], fun above habove target => ?_⟩
    -- what is above a missing name is above the existing ones or missing itself
    by_cases hlength : above.length ≤ found.reverse.length
    · exact hnolink above (List.suffix_of_suffix_length_le habove (List.suffix_append _ _) hlength)
        target
    · have hsuffix : found.reverse <:+ above :=
        List.suffix_of_suffix_length_le (List.suffix_append _ _) habove (by omega)
      cases missing with
      | nil =>
        have hle := habove.length_le
        simp only [List.reverse_nil, List.nil_append] at hle
        omega
      | cons name rest =>
        have hnot := hnames.missing name rest rfl
        rw [List.nil_append] at hnot
        obtain ⟨-, hnone⟩ := LinkTree.symlinkMetadata_snoc_notFound hnot hwalk
        have hname : name :: found.reverse <:+ above := by
          refine List.suffix_of_suffix_length_le ⟨rest.reverse, ?_⟩ habove ?_
          · simp
          · rw [List.length_cons]
            omega
        obtain ⟨front, rfl⟩ := hname
        rw [LinkTree.entry_append_none hnone]
        simp

end GraphLoom.Project
