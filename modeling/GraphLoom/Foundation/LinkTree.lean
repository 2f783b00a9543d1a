import GraphLoom.Foundation.Fallible
import GraphLoom.Foundation.FileSystem
import GraphLoom.Foundation.Paths

/-!
# File trees with symbolic links

A path is resolved one component after another; a link puts the components of its target before the
rest.  Where a path lies, with all links followed, is a relation (`Lies`): what is missing lies
where it would be made.  Resolving follows a bounded number of links and finds where an existing
path lies (`Lies.of_walk`).
-/

namespace GraphLoom.Foundation

inductive Entry where
  | file
  | directory
  | symlink (target : String)
deriving DecidableEq, Repr

/-- Entries by their locations, the innermost name first.  Each lies in a directory. -/
structure LinkTree where
  entries : Finmap fun _ : Path => Entry
  parent : ∀ path ∈ entries.keys, path.tail = [] ∨ entries.lookup path.tail = some .directory

/-- The components as they are resolved: an empty one or a dot needs a directory in front of it. -/
def kernelComponents (path : String) : List Component :=
  (if isAbsolute path then [.rootDir] else []) ++ (pieces path).map fun piece =>
    if piece = "" ∨ piece = "." then .curDir
    else if piece = ".." then .parentDir
    else .normal piece

theorem fileName_of_mem_kernelComponents {path name : String}
    (h : .normal name ∈ kernelComponents path) : FileName name := by
  rcases List.mem_append.mp h with h | h
  · split at h
    · simp at h
    · cases h
  · obtain ⟨piece, hpiece, heq⟩ := List.mem_map.mp h
    have hslash := notMem_of_mem_pieces hpiece
    split at heq
    · cases heq
    · rename_i hdot
      split at heq
      · cases heq
      · rename_i hparent
        obtain rfl := Component.normal.inj heq
        rw [not_or] at hdot
        exact ⟨⟨hdot.1, hslash⟩, hdot.2, hparent⟩

/-- The absolute path of a location. -/
def toPath (location : Path) : List Component := .rootDir :: location.reverse.map .normal

namespace LinkTree

variable (tree : LinkTree)

/-- The root is always there. -/
def entry (path : Path) : Option Entry :=
  if path = [] then some .directory else tree.entries.lookup path

/-- Resolve components from a directory, with a way to follow links. -/
def walkWith (follow : Path → List Component → Except IoErrorKind Path) :
    Path → List Component → Except IoErrorKind Path
  | directory, [] => .ok directory
  | _, .rootDir :: rest => walkWith follow [] rest
  | directory, .curDir :: rest =>
    if tree.entry directory = some .directory then walkWith follow directory rest
    else .error .notADirectory
  | directory, .parentDir :: rest =>
    if tree.entry directory = some .directory then walkWith follow directory.tail rest
    else .error .notADirectory
  | directory, .normal name :: rest =>
    if tree.entry directory = some .directory then
      match tree.entry (name :: directory) with
      | none => .error .notFound
      | some (.symlink target) => follow directory (kernelComponents target ++ rest)
      | some _ => walkWith follow (name :: directory) rest
    else .error .notADirectory

/-- Resolve components and follow at most so many links. -/
def walk : ℕ → Path → List Component → Except IoErrorKind Path
  | 0 => tree.walkWith fun _ _ => .error .other
  | links + 1 => tree.walkWith (walk links)

variable (links : ℕ)

def canonicalize (path : List Component) : Except IoErrorKind Path := tree.walk links [] path

def metadata (path : List Component) : Except IoErrorKind Entry := do
  let location ← tree.walk links [] path
  match tree.entry location with
  | some entry => .ok entry
  | none => .error .notFound

/-- The last component is not followed. -/
def symlinkMetadata (path : List Component) : Except IoErrorKind Entry :=
  match path.getLast? with
  | some (.normal name) => do
    let directory ← tree.walk links [] path.dropLast
    if tree.entry directory = some .directory then
      match tree.entry (name :: directory) with
      | some entry => .ok entry
      | none => .error .notFound
    else .error .notADirectory
  | _ => tree.metadata links path

/-- Where components lie, from a directory, with all links followed.  What lies in a missing
directory is missing; nothing lies in a file. -/
inductive Lies : Path → List Component → Path → Prop
  | nil (directory : Path) : Lies directory [] directory
  | rootDir {directory rest location} (h : Lies [] rest location) :
      Lies directory (.rootDir :: rest) location
  | curDir {directory rest location} (hfile : tree.entry directory ≠ some .file)
      (h : Lies directory rest location) : Lies directory (.curDir :: rest) location
  | parentDir {directory rest location} (hfile : tree.entry directory ≠ some .file)
      (h : Lies directory.tail rest location) : Lies directory (.parentDir :: rest) location
  | normal {directory name rest location} (hfile : tree.entry directory ≠ some .file)
      (hlink : ∀ target, tree.entry (name :: directory) ≠ some (.symlink target))
      (h : Lies (name :: directory) rest location) : Lies directory (.normal name :: rest) location
  | symlink {directory name rest location target} (hfile : tree.entry directory ≠ some .file)
      (hlink : tree.entry (name :: directory) = some (.symlink target))
      (h : Lies directory (kernelComponents target ++ rest) location) :
      Lies directory (.normal name :: rest) location

variable {tree links} {directory location location' path : Path} {comps rest : List Component}
  {name : String}

/-! ### Entries -/

@[simp]
theorem entry_nil : tree.entry [] = some .directory := rfl

theorem entry_tail (h : tree.entry path ≠ none) : tree.entry path.tail = some .directory := by
  by_cases hnil : path = []
  · rw [hnil]
    rfl
  rw [entry, if_neg hnil, ne_eq, Finmap.lookup_eq_none, not_not] at h
  unfold entry
  rcases tree.parent path (Finmap.mem_keys.mpr h) with htail | htail
  · rw [if_pos htail]
  · split
    · rfl
    · exact htail

/-- Nothing lies below what is missing. -/
theorem entry_append_none (h : tree.entry path = none) (front : Path) :
    tree.entry (front ++ path) = none := by
  induction front with
  | nil => exact h
  | cons name front ih =>
    by_contra hsome
    have htail := entry_tail hsome
    rw [List.cons_append, List.tail_cons, ih] at htail
    cases htail

/-! ### Where paths lie -/

/-- A path lies at one location. -/
theorem Lies.unique (h : tree.Lies directory comps location)
    (h' : tree.Lies directory comps location') : location = location' := by
  induction h with
  | nil => cases h'; rfl
  | rootDir _ ih => cases h' with | rootDir h' => exact ih h'
  | curDir _ _ ih => cases h' with | curDir _ h' => exact ih h'
  | parentDir _ _ ih => cases h' with | parentDir _ h' => exact ih h'
  | normal _ hlink _ ih =>
    cases h' with
    | normal _ _ h' => exact ih h'
    | symlink _ hlink' _ => exact absurd hlink' (hlink _)
  | symlink _ hlink _ ih =>
    cases h' with
    | normal _ hlink' _ => exact absurd hlink (hlink' _)
    | symlink _ hlink' h' =>
      rw [hlink, Option.some.injEq, Entry.symlink.injEq] at hlink'
      subst hlink'
      exact ih h'

/-- Missing names lie below a directory. -/
theorem Lies.missing {names : List String} (hdirectory : tree.entry directory = some .directory)
    (hmissing : tree.entry (name :: directory) = none) :
    tree.Lies directory ((name :: names).map .normal) ((name :: names).reverse ++ directory) := by
  have hrest : ∀ (names : List String) (front : Path), tree.Lies (front ++ name :: directory)
      (names.map .normal) (names.reverse ++ (front ++ name :: directory)) := by
    intro names
    induction names with
    | nil => exact fun front => .nil _
    | cons next names ih =>
      intro front
      have hnone := entry_append_none hmissing front
      have hnone' := entry_append_none hmissing (next :: front)
      rw [List.map_cons, List.reverse_cons, List.append_assoc, List.singleton_append]
      refine .normal (by simp [hnone]) (fun target => ?_) (ih (next :: front))
      rw [List.cons_append] at hnone'
      rw [hnone']
      simp
  rw [List.map_cons, List.reverse_cons, List.append_assoc, List.singleton_append]
  refine .normal (by simp [hdirectory]) (fun target => ?_) (hrest names [])
  rw [hmissing]
  simp

section

variable {follow : Path → List Component → Except IoErrorKind Path}

theorem Lies.of_walkWith
    (hfollow : ∀ directory comps, follow directory comps = .ok location →
      tree.Lies directory (comps ++ rest) location')
    (h : tree.walkWith follow directory comps = .ok location)
    (hrest : tree.Lies location rest location') :
    tree.Lies directory (comps ++ rest) location' := by
  induction comps generalizing directory with
  | nil =>
    obtain rfl := Except.ok.inj h
    exact hrest
  | cons component comps ih =>
    cases component with
    | rootDir => exact .rootDir (ih h)
    | curDir =>
      unfold walkWith at h
      split at h
      · rename_i hdirectory
        exact .curDir (by simp [hdirectory]) (ih h)
      · cases h
    | parentDir =>
      unfold walkWith at h
      split at h
      · rename_i hdirectory
        exact .parentDir (by simp [hdirectory]) (ih h)
      · cases h
    | normal name =>
      unfold walkWith at h
      split at h
      · rename_i hdirectory
        have hfile : tree.entry directory ≠ some .file := by simp [hdirectory]
        cases hentry : tree.entry (name :: directory) with
        | none =>
          rw [hentry] at h
          cases h
        | some entry =>
          rw [hentry] at h
          cases entry with
          | symlink target =>
            have hlies := hfollow _ _ h
            rw [List.append_assoc] at hlies
            exact .symlink hfile hentry hlies
          | file => exact .normal hfile (by simp [hentry]) (ih h)
          | directory => exact .normal hfile (by simp [hentry]) (ih h)
      · cases h

/-- One more name that is no link. -/
theorem walkWith_snoc
    (hfollow : ∀ directory comps, follow directory comps = .ok location →
      follow directory (comps ++ [.normal name]) = .ok (name :: location))
    (h : tree.walkWith follow directory comps = .ok location)
    (hdirectory : tree.entry location = some .directory) {entry : Entry}
    (hentry : tree.entry (name :: location) = some entry)
    (hlink : ∀ target, entry ≠ .symlink target) :
    tree.walkWith follow directory (comps ++ [.normal name]) = .ok (name :: location) := by
  induction comps generalizing directory with
  | nil =>
    obtain rfl := Except.ok.inj h
    rw [List.nil_append, walkWith, if_pos hdirectory, hentry]
    cases entry with
    | symlink target => exact absurd rfl (hlink target)
    | file => rfl
    | directory => rfl
  | cons component comps ih =>
    cases component with
    | rootDir => exact ih h
    | curDir =>
      unfold walkWith at h
      rw [List.cons_append, walkWith]
      split at h
      · rename_i hdir
        rw [if_pos hdir]
        exact ih h
      · cases h
    | parentDir =>
      unfold walkWith at h
      rw [List.cons_append, walkWith]
      split at h
      · rename_i hdir
        rw [if_pos hdir]
        exact ih h
      · cases h
    | normal next =>
      unfold walkWith at h
      rw [List.cons_append, walkWith]
      split at h
      · rename_i hdir
        rw [if_pos hdir]
        cases hnext : tree.entry (next :: directory) with
        | none =>
          rw [hnext] at h
          cases h
        | some found =>
          rw [hnext] at h
          cases found with
          | symlink target =>
            dsimp only at h ⊢
            rw [← List.append_assoc]
            exact hfollow _ _ h
          | file => exact ih h
          | directory => exact ih h
      · cases h

end

/-- What resolves to a location lies there, and what follows lies behind it. -/
theorem Lies.of_walk (h : tree.walk links directory comps = .ok location)
    (hrest : tree.Lies location rest location') :
    tree.Lies directory (comps ++ rest) location' := by
  induction links generalizing directory comps with
  | zero =>
    rw [walk] at h
    refine .of_walkWith ?_ h hrest
    exact fun _ _ h => nomatch h
  | succ links ih => exact .of_walkWith (fun _ _ h => ih h) h hrest

theorem walk_snoc (h : tree.walk links directory comps = .ok location)
    (hdirectory : tree.entry location = some .directory) {entry : Entry}
    (hentry : tree.entry (name :: location) = some entry)
    (hlink : ∀ target, entry ≠ .symlink target) :
    tree.walk links directory (comps ++ [.normal name]) = .ok (name :: location) := by
  induction links generalizing directory comps with
  | zero =>
    rw [walk] at h
    refine walkWith_snoc ?_ h hdirectory hentry hlink
    exact fun _ _ h => nomatch h
  | succ links ih => exact walkWith_snoc (fun _ _ h => ih h) h hdirectory hentry hlink

/-- The entry of a last name, in a directory that is resolved. -/
theorem symlinkMetadata_snoc (hwalk : tree.walk links [] comps = .ok directory)
    (hdirectory : tree.entry directory = some .directory) :
    tree.symlinkMetadata links (comps ++ [.normal name]) =
      match tree.entry (name :: directory) with
      | some entry => .ok entry
      | none => .error .notFound := by
  unfold symlinkMetadata
  rw [List.getLast?_concat, List.dropLast_concat]
  dsimp only
  rw [hwalk]
  simp only [bind, Except.bind, if_pos hdirectory]

/-- What the last name is not looked up in is no directory. -/
theorem symlinkMetadata_snoc_notADirectory (hwalk : tree.walk links [] comps = .ok directory)
    (hdirectory : tree.entry directory ≠ some .directory) :
    tree.symlinkMetadata links (comps ++ [.normal name]) = .error .notADirectory := by
  unfold symlinkMetadata
  rw [List.getLast?_concat, List.dropLast_concat]
  dsimp only
  rw [hwalk]
  simp only [bind, Except.bind, if_neg hdirectory]

theorem symlinkMetadata_snoc_error {source : IoErrorKind}
    (hwalk : tree.walk links [] comps = .error source) :
    tree.symlinkMetadata links (comps ++ [.normal name]) = .error source := by
  unfold symlinkMetadata
  rw [List.getLast?_concat, List.dropLast_concat]
  dsimp only
  rw [hwalk]
  rfl

/-- What the entry of a path without a last link is found in. -/
theorem symlinkMetadata_snoc_eq_ok {entry : Entry}
    (h : tree.symlinkMetadata links (comps ++ [.normal name]) = .ok entry) :
    ∃ directory, tree.walk links [] comps = .ok directory ∧
      tree.entry directory = some .directory ∧ tree.entry (name :: directory) = some entry := by
  cases hwalk : tree.walk links [] comps with
  | error source =>
    rw [symlinkMetadata_snoc_error hwalk] at h
    cases h
  | ok directory =>
    by_cases hdirectory : tree.entry directory = some .directory
    · rw [symlinkMetadata_snoc hwalk hdirectory] at h
      refine ⟨directory, rfl, hdirectory, ?_⟩
      cases hentry : tree.entry (name :: directory) with
      | none =>
        rw [hentry] at h
        cases h
      | some found =>
        rw [hentry] at h
        rw [Except.ok.inj h]
    · rw [symlinkMetadata_snoc_notADirectory hwalk hdirectory] at h
      cases h

/-- A name that is not found in a path that is resolved is missing in a directory. -/
theorem symlinkMetadata_snoc_notFound (h : tree.symlinkMetadata links (comps ++ [.normal name]) =
      .error .notFound) (hwalk : tree.walk links [] comps = .ok directory) :
    tree.entry directory = some .directory ∧ tree.entry (name :: directory) = none := by
  by_cases hdirectory : tree.entry directory = some .directory
  · rw [symlinkMetadata_snoc hwalk hdirectory] at h
    refine ⟨hdirectory, ?_⟩
    cases hentry : tree.entry (name :: directory) with
    | none => rfl
    | some found =>
      rw [hentry] at h
      cases h
  · rw [symlinkMetadata_snoc_notADirectory hwalk hdirectory] at h
    cases h

/-! ### Locations without links -/

/-- Nothing at a location or above it is a link, and nothing above it is a file. -/
structure Clear (tree : LinkTree) (location : Path) : Prop where
  noLink : ∀ above, above <:+ location → ∀ link, tree.entry above ≠ some (.symlink link)
  noFile : ∀ above, above <:+ location → above ≠ location → tree.entry above ≠ some .file

theorem Clear.nil : Clear tree [] where
  noLink above habove link := by
    rw [List.eq_nil_of_suffix_nil habove]
    simp
  noFile above habove hne := absurd (List.eq_nil_of_suffix_nil habove) hne

theorem Clear.above (h : Clear tree location) (hpath : path <:+ location) : Clear tree path where
  noLink above habove := h.noLink above (habove.trans hpath)
  noFile above habove hne := by
    refine h.noFile above (habove.trans hpath) ?_
    rintro rfl
    exact hne (habove.eq_of_length_le hpath.length_le)

theorem Clear.cons (h : Clear tree directory) (hfile : tree.entry directory ≠ some .file)
    (hlink : ∀ target, tree.entry (name :: directory) ≠ some (.symlink target)) :
    Clear tree (name :: directory) where
  noLink above habove := by
    rcases List.suffix_cons_iff.mp habove with rfl | habove
    · exact hlink
    · exact h.noLink above habove
  noFile above habove hne := by
    rcases List.suffix_cons_iff.mp habove with rfl | habove
    · exact absurd rfl hne
    · by_cases hsame : above = directory
      · rw [hsame]
        exact hfile
      · exact h.noFile above habove hsame

/-- Paths lie at locations without links. -/
theorem Lies.clear (h : tree.Lies directory comps location) (hclear : Clear tree directory) :
    Clear tree location := by
  induction h with
  | nil => exact hclear
  | rootDir _ ih => exact ih .nil
  | curDir _ _ ih => exact ih hclear
  | parentDir _ _ ih => exact ih (hclear.above (List.tail_suffix _))
  | normal hfile hlink _ ih => exact ih (hclear.cons hfile hlink)
  | symlink _ _ _ ih => exact ih hclear

/-- Such a location is where its path lies. -/
theorem Clear.lies (h : Clear tree location) : tree.Lies [] (toPath location) location := by
  have hnames : ∀ (names : List String) (done : Path), Clear tree (names.reverse ++ done) →
      tree.Lies done (names.map .normal) (names.reverse ++ done) := by
    intro names
    induction names with
    | nil => exact fun done _ => .nil _
    | cons name names ih =>
      intro done hclear
      rw [List.reverse_cons, List.append_assoc, List.singleton_append] at hclear ⊢
      have hdone : done <:+ names.reverse ++ name :: done :=
        (List.suffix_cons _ _).trans (List.suffix_append _ _)
      refine .normal (hclear.noFile done hdone fun heq => ?_)
        (hclear.noLink _ (List.suffix_append _ _)) (ih _ hclear)
      have hlength := congrArg List.length heq
      simp at hlength
      omega
  have hlies := hnames location.reverse [] (by simpa using h)
  rw [List.reverse_reverse, List.append_nil] at hlies
  exact .rootDir hlies

/-- The names of a location are names of files when those of the path are. -/
theorem Lies.fileName (h : tree.Lies directory comps location)
    (hdirectory : ∀ name ∈ directory, FileName name)
    (hcomps : ∀ name, .normal name ∈ comps → FileName name) : ∀ name ∈ location, FileName name := by
  have hrest : ∀ {component : Component} {comps : List Component},
      (∀ name, Component.normal name ∈ component :: comps → FileName name) →
      ∀ name, .normal name ∈ comps → FileName name := fun h name hname =>
    h name (List.mem_cons_of_mem _ hname)
  induction h with
  | nil => exact hdirectory
  | rootDir _ ih => exact ih (fun _ hname => absurd hname List.not_mem_nil) (hrest hcomps)
  | curDir _ _ ih => exact ih hdirectory (hrest hcomps)
  | parentDir _ _ ih =>
    exact ih (fun name hname => hdirectory name (List.mem_of_mem_tail hname)) (hrest hcomps)
  | normal _ _ _ ih =>
    refine ih (fun name hname => ?_) (hrest hcomps)
    rcases List.mem_cons.mp hname with rfl | hname
    · exact hcomps _ (List.mem_cons_self ..)
    · exact hdirectory name hname
  | symlink _ _ _ ih =>
    refine ih hdirectory fun name hname => ?_
    rcases List.mem_append.mp hname with hname | hname
    · exact fileName_of_mem_kernelComponents hname
    · exact hrest hcomps name hname

end LinkTree

end GraphLoom.Foundation
