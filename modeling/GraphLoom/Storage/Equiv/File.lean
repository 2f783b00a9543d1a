import GraphLoom.Foundation.Fallible
import GraphLoom.Storage.Parquet

/-!
## Names of tables and namespaces

A namespace is a list of names.  In memory its table has the names joined with slashes as its key
(`tableKey`), among files its path has them as directories (`tablePath`).  Both tell the tables
apart when no name of a namespace is that of a Parquet file (`NameOk`).
-/

namespace GraphLoom.Storage

open Foundation

/-! ### Table names -/

/-- What `validateTableName` accepts. -/
def TableName (name : String) : Prop :=
  name ≠ "" ∧ name.utf8ByteSize ≤ 128 ∧ ∀ c ∈ name.toList, isTableNameChar c

variable {name name' path : String} {names cs cs' : List String} {root : Path}

theorem validateTableName_ok (h : TableName name) : validateTableName name = .ok name := by
  obtain ⟨hne, hsize, hchars⟩ := h
  unfold validateTableName
  rw [if_neg]
  rintro (hempty | hlarge | hall)
  · exact hne hempty
  · omega
  · exact hall (List.all_eq_true.mpr hchars)

theorem validateTableName_error (h : ¬ TableName name) :
    ∃ reason, validateTableName name = .error (.invalidPath name reason) := by
  unfold validateTableName
  split
  · exact ⟨_, rfl⟩
  · rename_i hnot
    simp only [not_or, not_not, not_lt] at hnot
    obtain ⟨hne, hsize, hall⟩ := hnot
    exact absurd ⟨hne, hsize, List.all_eq_true.mp hall⟩ h

theorem notMem_of_tableName (h : TableName name) {c : Char} (hc : isTableNameChar c = false) :
    c ∉ name.toList := by
  intro hmem
  have htrue := h.2.2 c hmem
  rw [hc] at htrue
  cases htrue

theorem TableName.isName (h : TableName name) : IsName name :=
  ⟨h.1, notMem_of_tableName h (by decide)⟩

/-! ### Names of namespaces -/

/-- A name of a namespace, that is not the name of a Parquet file. -/
def NameOk (name : String) : Prop := isSafePathComponent name ∧ ¬ endsWith ".parquet" name

theorem isSafePathComponent_iff : isSafePathComponent name ↔
    name ≠ "" ∧ name ≠ "." ∧ name ≠ ".." ∧ '\x00' ∉ name.toList ∧ '/' ∉ name.toList ∧
      '\\' ∉ name.toList := by
  simp [isSafePathComponent, and_assoc]

theorem NameOk.isName (h : NameOk name) : IsName name := by
  obtain ⟨hne, -, -, -, hslash, -⟩ := isSafePathComponent_iff.mp h.1
  exact ⟨hne, hslash⟩

/-- The names of a path that is valid are safe. -/
theorem safe_of_validateLogicalPath (h : validateLogicalPath path = .ok names) :
    ∀ name ∈ names, isSafePathComponent name := by
  unfold validateLogicalPath at h
  split at h
  · obtain rfl := Except.ok.inj h
    exact fun name hname => absurd hname List.not_mem_nil
  split at h
  · cases h
  · intro name hname
    obtain ⟨component, -, hcomponent⟩ := forall₂_exists_left (mapM_eq_ok_iff.mp h) hname
    cases component with
    | normal name' =>
      dsimp only at hcomponent
      split at hcomponent
      · rename_i hsafe
        rw [← Except.ok.inj hcomponent]
        exact hsafe
      · cases hcomponent
    | rootDir => cases hcomponent
    | curDir => cases hcomponent
    | parentDir => cases hcomponent

theorem validateLogicalPath_error (h : ∀ names, validateLogicalPath path ≠ .ok names) :
    ∃ reason, validateLogicalPath path = .error (.invalidPath path reason) := by
  unfold validateLogicalPath at h ⊢
  split at h
  · exact absurd rfl (h [])
  split at h
  · rename_i hempty habsolute
    rw [if_neg hempty, if_pos habsolute]
    exact ⟨_, rfl⟩
  rename_i hempty habsolute
  rw [if_neg hempty, if_neg habsolute]
  -- the first component that is not safe has the error
  generalize components path = parts at h ⊢
  induction parts with
  | nil => exact absurd rfl (h [])
  | cons component parts ih =>
    rw [List.mapM_cons] at h ⊢
    cases component with
    | normal name =>
      by_cases hsafe : isSafePathComponent name
      · simp only [hsafe, if_true] at h ⊢
        obtain ⟨reason, hreason⟩ := ih fun names hnames => h (name :: names) (by rw [hnames]; rfl)
        exact ⟨reason, by rw [hreason]; rfl⟩
      · simp only [hsafe]
        exact ⟨_, rfl⟩
    | rootDir => exact ⟨_, rfl⟩
    | curDir => exact ⟨_, rfl⟩
    | parentDir => exact ⟨_, rfl⟩

/-- Only the empty path has no names. -/
theorem names_ne_nil (hpath : path ≠ "") (h : validateLogicalPath path = .ok names) :
    names ≠ [] := by
  rintro rfl
  unfold validateLogicalPath at h
  rw [if_neg hpath] at h
  split at h
  · cases h
  · have hparts := List.forall₂_nil_right_iff.mp (mapM_eq_ok_iff.mp h)
    exact components_ne_nil hpath hparts

/-- Names that are safe are those of the path that joins them. -/
theorem validateLogicalPath_intercalate (hsafe : ∀ name ∈ names, isSafePathComponent name) :
    validateLogicalPath ("/".intercalate names) = .ok names := by
  by_cases hnil : names = []
  · rw [hnil]
    rfl
  have hall : ∀ name ∈ names, IsName name ∧ name ≠ "." ∧ name ≠ ".." := by
    intro name hname
    obtain ⟨hne, hdot, hparent, -, hslash, -⟩ := isSafePathComponent_iff.mp (hsafe name hname)
    exact ⟨⟨hne, hslash⟩, hdot, hparent⟩
  have hcomponents := components_intercalate hall
  have hrelative : ¬ isAbsolute ("/".intercalate names) := by
    intro habsolute
    unfold components at hcomponents
    rw [if_pos habsolute] at hcomponents
    obtain ⟨name, others, rfl⟩ := List.exists_cons_of_ne_nil hnil
    cases hcomponents
  unfold validateLogicalPath
  rw [if_neg (intercalate_ne_empty (fun name hname => (hall name hname).1) hnil),
    if_neg hrelative, hcomponents, mapM_eq_ok_iff, List.forall₂_map_left_iff,
    List.forall₂_same]
  intro name hname
  dsimp only
  rw [if_pos (hsafe name hname)]

/-! ### Keys and paths of tables -/

/-- The key of a table in memory. -/
def tableKey (cs : List String) (name : String) : String := "/".intercalate (cs ++ [name])

/-- The path of the file of a table. -/
def tablePath (root : Path) (cs : List String) (name : String) : Path :=
  (name ++ ".parquet") :: join root cs

def NamesOk (cs : List String) : Prop := ∀ name ∈ cs, NameOk name

theorem NamesOk.append (h : NamesOk cs) (h' : NamesOk cs') : NamesOk (cs ++ cs') := by
  intro name hname
  rcases List.mem_append.mp hname with hname | hname
  · exact h name hname
  · exact h' name hname

theorem isName_of_tableKey (h : NamesOk cs) (hname : TableName name) :
    ∀ part ∈ cs ++ [name], IsName part := by
  intro part hpart
  rcases List.mem_append.mp hpart with hpart | hpart
  · exact (h part hpart).isName
  · rw [List.mem_singleton.mp hpart]
    exact hname.isName

theorem tableKey_injective (h : NamesOk cs) (h' : NamesOk cs') (hname : TableName name)
    (hname' : TableName name') (heq : tableKey cs name = tableKey cs' name') :
    cs = cs' ∧ name = name' := by
  have hlists := intercalate_injective (isName_of_tableKey h hname)
    (isName_of_tableKey h' hname') heq
  obtain ⟨hcs, hnames⟩ := List.append_inj' hlists rfl
  exact ⟨hcs, (List.cons.inj hnames).1⟩

theorem tableKey_append (hcs : cs ≠ []) (cs' : List String) (name : String) :
    tableKey (cs ++ cs') name = "/".intercalate cs ++ "/" ++ tableKey cs' name := by
  unfold tableKey
  rw [List.append_assoc, String.intercalate_append_of_ne_nil hcs (by simp)]

theorem join_append : join root (cs ++ cs') = join (join root cs) cs' := by
  simp [join]

theorem join_injective (h : join root cs = join root cs') : cs = cs' := by
  unfold join at h
  exact List.reverse_injective (List.append_cancel_right h)

theorem tablePath_injective (h : tablePath root cs name = tablePath root cs' name') :
    cs = cs' ∧ name = name' := by
  obtain ⟨hname, hjoin⟩ := List.cons.inj h
  exact ⟨join_injective hjoin, String.append_left_inj ".parquet" |>.mp hname⟩

/-- A namespace is not where a table is. -/
theorem join_ne_tablePath (h : NamesOk cs) : join root cs ≠ tablePath root cs' name := by
  intro heq
  rcases List.eq_nil_or_concat cs with rfl | ⟨front, last, rfl⟩
  · have hlength := congrArg List.length heq
    simp [join, tablePath] at hlength
    omega
  · rw [List.concat_eq_append] at h heq
    have hlast : last = name ++ ".parquet" := by
      unfold join tablePath at heq
      rw [List.reverse_append] at heq
      exact (List.cons.inj heq).1
    refine (h last (by simp)).2 (endsWith_iff.mpr ⟨name, hlast⟩)

/-- A table is an object in its namespace. -/
theorem logicalPath_tableObject (h : TableName name) :
    FileStorage.logicalPath ⟨root, cs⟩ (name ++ ".parquet") = .ok (tablePath root cs name) := by
  have hsafe : isSafePathComponent (name ++ ".parquet") := by
    have hnot : ∀ c, isTableNameChar c = false → c ∉ ".parquet".toList →
        c ∉ (name ++ ".parquet").toList := by
      intro c hc hparquet hmem
      rw [String.toList_append, List.mem_append] at hmem
      exact hmem.elim (notMem_of_tableName h hc) hparquet
    rw [isSafePathComponent_iff]
    have hlong : 8 ≤ (name ++ ".parquet").toList.length := by
      rw [String.toList_append, List.length_append]
      have hlength : ".parquet".toList.length = 8 := by decide
      omega
    refine ⟨?_, ?_, ?_, hnot _ (by decide) (by decide), hnot _ (by decide) (by decide),
      hnot _ (by decide) (by decide)⟩
    all_goals
      intro heq
      rw [heq] at hlong
      revert hlong
      decide
  have hall : ∀ part ∈ [name ++ ".parquet"], isSafePathComponent part := by
    intro part hpart
    rw [List.mem_singleton.mp hpart]
    exact hsafe
  have hvalid := validateLogicalPath_intercalate hall
  rw [String.intercalate_singleton] at hvalid
  unfold FileStorage.logicalPath
  rw [hvalid]
  rfl

end GraphLoom.Storage

/-!
## Finding objects

`find_eq`: the keys that are found are those of the files below the directory of the namespace, each
once.  The loop over the directories is the walk of the library with a filter on what is met.
-/

namespace GraphLoom.Storage

open Foundation

/-- Sorting makes lists with the same elements equal. -/
theorem mergeSort_eq_iff_perm {xs ys : List String} :
    xs.mergeSort (· ≤ ·) = ys.mergeSort (· ≤ ·) ↔ xs.Perm ys := by
  constructor
  · intro h
    have hperm := (List.mergeSort_perm ys (· ≤ ·))
    rw [← h] at hperm
    exact (List.mergeSort_perm xs _).symm.trans hperm
  · intro h
    refine List.Perm.eq_of_pairwise' (r := (· ≤ ·)) (List.pairwise_mergeSort' _ _)
      (List.pairwise_mergeSort' _ _) ?_
    exact (List.mergeSort_perm xs _).trans (h.trans (List.mergeSort_perm ys _).symm)

variable {fs : FileSystem} {base path : Path} {names : List String}

theorem FileStorage.node_eq {name : String} (hname : name ≠ "") :
    FileStorage.node name path fs = fs.metadata path := by
  unfold FileStorage.node
  rcases fs.metadata path with kind | node
  · rfl
  · cases node with
    | directory => rfl
    | file bytes => exact if_neg hname

theorem stripBase_eq_some_iff : stripBase base path = some names ↔ path = join base names := by
  unfold stripBase join
  constructor
  · intro h
    split at h
    · rename_i hsuffix
      rw [← Option.some.inj h, List.reverse_reverse, List.suffix_iff_eq_append.mp hsuffix]
    · cases h
  · rintro rfl
    rw [if_pos (List.suffix_append _ _), List.length_append, Nat.add_sub_cancel, List.take_left,
      List.reverse_reverse]

/-- What a path that is met adds to the keys. -/
def foundKey (base : Path) (front : String) (isMatch : String → Bool) (fs : FileSystem)
    (path : Path) : Option String :=
  if fs.isDirectory path ∨ ¬ fs.isFile path then none
  else ((stripBase base path).map pathToLogical).filter fun logical =>
    startsWith front logical && isMatch logical

theorem collectEntries_eq (front : String) (isMatch : String → Bool) {entries stack : List Path}
    {output : List String} (h : ∀ entry ∈ entries, base <:+ entry) :
    collectEntries base front isMatch fs entries stack output =
      .ok ((entries.filter fs.isDirectory).reverse ++ stack,
        output ++ entries.filterMap (foundKey base front isMatch fs)) := by
  induction entries generalizing stack output with
  | nil => simp [collectEntries]
  | cons entry entries ih =>
    have hrest : ∀ entry ∈ entries, base <:+ entry := fun other hother =>
      h other (List.mem_cons_of_mem _ hother)
    unfold collectEntries
    by_cases hdirectory : fs.isDirectory entry
    · have hkey : foundKey base front isMatch fs entry = none := by simp [foundKey, hdirectory]
      rw [if_pos hdirectory, ih hrest, List.filterMap_cons, hkey]
      simp [hdirectory]
    rw [if_neg hdirectory]
    by_cases hfile : fs.isFile entry
    · obtain ⟨relative, hrelative⟩ : ∃ relative, stripBase base entry = some relative := by
        obtain ⟨names, hnames⟩ := h entry (List.mem_cons_self ..)
        exact ⟨names.reverse, stripBase_eq_some_iff.mpr (by simp [join, hnames])⟩
      have hkey : foundKey base front isMatch fs entry =
          if startsWith front (pathToLogical relative) && isMatch (pathToLogical relative) then
            some (pathToLogical relative) else none := by
        unfold foundKey
        rw [if_neg (by simp [hdirectory, hfile]), hrelative]
        rfl
      rw [if_pos hfile, hrelative, List.filterMap_cons, hkey]
      dsimp only
      split
      · rw [ih hrest]
        simp [hdirectory]
      · rw [ih hrest]
        simp [hdirectory]
    · have hkey : foundKey base front isMatch fs entry = none := by simp [foundKey, hfile]
      rw [if_neg hfile, ih hrest, List.filterMap_cons, hkey]
      simp [hdirectory]

/-- The loop keeps the keys of what the walk meets. -/
theorem collectFiles_eq (front : String) (isMatch : String → Bool) {turns : ℕ} {stack met : List Path}
    (h : ∀ directory ∈ stack, base <:+ directory) (hread : ∀ directory ∈ stack, fs.isDirectory directory) :
    collectFiles base front isMatch fs turns stack
        (met.filterMap (foundKey base front isMatch fs)) =
      .ok ((fs.walk turns stack met).filterMap (foundKey base front isMatch fs)) := by
  induction turns generalizing stack met with
  | zero => rfl
  | succ turns ih =>
    cases stack with
    | nil => rfl
    | cons current stack =>
      have hentries : ∀ entry ∈ fs.entries current, base <:+ entry := fun entry hentry =>
        (h current (List.mem_cons_self ..)).trans (FileSystem.suffix_of_mem_entries hentry)
      unfold collectFiles FileSystem.walk
      rw [if_pos (hread current (List.mem_cons_self ..)), collectEntries_eq front isMatch hentries]
      dsimp only
      rw [← List.filterMap_append]
      refine ih (fun directory hdirectory => ?_) fun directory hdirectory => ?_
      · rcases List.mem_append.mp hdirectory with hdirectory | hdirectory
        · exact hentries directory (List.mem_filter.mp (List.mem_reverse.mp hdirectory)).1
        · exact h directory (List.mem_cons_of_mem _ hdirectory)
      · rcases List.mem_append.mp hdirectory with hdirectory | hdirectory
        · exact (List.mem_filter.mp (List.mem_reverse.mp hdirectory)).2
        · exact hread directory (List.mem_cons_of_mem _ hdirectory)

/-- The number of directories below a directory bounds the turns. -/
theorem walkTurns_le : fs.walkTurns [base] ≤ fs.keys.card + 1 := by
  have hbelow : (fs.below base).length ≤ fs.keys.card := by
    unfold FileSystem.below
    rw [Finset.length_sort]
    exact Finset.card_filter_le _ _
  have hcount := List.countP_le_length (p := fs.isDirectory) (l := fs.below base)
  simp only [FileSystem.walkTurns, List.map_cons, List.map_nil, List.sum_cons, List.sum_nil]
  omega

/-- What is there and not obstructed is a directory. -/
theorem isDirectory_of_there (hfree : Unobstructed fs path)
    (hthere : path = [] ∨ fs.lookup path ≠ none) : fs.isDirectory path := by
  rcases hthere with hnil | hthere
  · rw [hnil]
    rfl
  obtain ⟨node, hnode⟩ := Option.ne_none_iff_exists'.mp hthere
  by_cases hnil : path = []
  · rw [hnil]
    rfl
  cases node with
  | directory => exact FileSystem.isDirectory_iff.mpr (.inr hnode)
  | file content =>
    exact absurd (FileSystem.isFile_iff.mpr ⟨hnil, content, hnode⟩) (hfree path (List.suffix_refl _))

/-- The keys that are listed, when no file is in the way. -/
theorem listed_eq (htree : fs.Tree) {storage : FileStorage}
    (hfree : Unobstructed fs (join storage.root storage.nspace)) (front : String)
    (isMatch : String → Bool) :
    storage.listed front isMatch fs =
      .ok (((fs.below (join storage.root storage.nspace)).filterMap
        (foundKey (join storage.root storage.nspace) front isMatch fs)).mergeSort (· ≤ ·)) := by
  unfold FileStorage.listed
  dsimp only
  rw [tryExists_eq fun above habove _ => hfree above habove]
  generalize join storage.root storage.nspace = base at hfree ⊢
  by_cases hthere : base = [] ∨ fs.lookup base ≠ none
  · rw [decide_eq_true hthere]
    dsimp only
    have hstack : ∀ directory ∈ [base], base <:+ directory := by simp
    have hread : ∀ directory ∈ [base], fs.isDirectory directory := by
      simpa using isDirectory_of_there hfree hthere
    have hloop := @collectFiles_eq fs _ front isMatch (fs.keys.card + 1) _ [] hstack hread
    rw [List.filterMap_nil] at hloop
    have hwalk : (fs.walk (fs.keys.card + 1) [base] []).Perm (fs.below base) := by
      have hperm := @FileSystem.walk_perm fs htree _ _ [] (@walkTurns_le fs base)
      simpa using hperm
    rw [hloop, Except.map, mergeSort_eq_iff_perm.mpr (hwalk.filterMap _)]
  · rw [decide_eq_false hthere]
    rw [not_or, not_not] at hthere
    have hbelow : fs.below base = [] := by
      rw [List.eq_nil_iff_forall_not_mem]
      intro path hpath
      obtain ⟨hlookup, hsuffix, -⟩ := FileSystem.mem_below.mp hpath
      exact hlookup (htree.below_none hthere.2 hthere.1 hsuffix)
    rw [hbelow]
    simp

/-- The keys that are found, when no file is in the way. -/
theorem find_eq (htree : fs.Tree) {root : Path} {nspace : List String}
    (hfree : Unobstructed fs (join root nspace)) (isMatch : String → Bool) :
    FileStorage.find ⟨root, nspace⟩ isMatch fs =
      .ok (((fs.below (join root nspace)).filterMap
        (foundKey (join root nspace) "" isMatch fs)).mergeSort (· ≤ ·)) :=
  @listed_eq fs htree ⟨root, nspace⟩ hfree "" isMatch

end GraphLoom.Storage
