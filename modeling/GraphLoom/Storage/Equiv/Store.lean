import GraphLoom.Storage.Equiv.File

/-!
## The same tables in memory and in files

The tables in memory and the files below the root are the same when each table that is under a key
is also at the path, and nothing else is there but directories of namespaces (`SameStore`).  Reading
gives the same then (`readOptional_eq`), writing keeps it (`SameStore.set`), and the lists are the
same exactly when no table lies in a namespace below (`list_eq_iff`).
-/

namespace GraphLoom.Storage

open Foundation DataFrame
open FileSystem (isDirectory_iff isFile_iff mem_below not_isFile_of_isDirectory)

variable {δ ν : Type} [DataFrame δ ν]

/-- Reading what has been written gives the data frame. -/
def Lossless (δ : Type) {ν : Type} [DataFrame δ ν] : Prop :=
  ∀ dataframe : δ, ∃ bytes, finishWrite dataframe = .ok bytes ∧ finishRead bytes = .ok dataframe

/-- A table is neither in memory nor among the files, or it is in both. -/
inductive SameEntry (dataframe : Option δ) (node : Option Node) : Prop
  | none (hmemory : dataframe = none) (hfile : node = none)
  | some {value : δ} {bytes : String} (hmemory : dataframe = some value)
      (hfile : node = some (.file bytes)) (hread : finishRead bytes = .ok value)

structure SameStore (root : Path) (tables : MemoryTables δ) (fs : FileSystem) : Prop where
  tree : fs.Tree
  directory : fs.isDirectory root
  table : ∀ {cs name}, NamesOk cs → TableName name →
    SameEntry (tables.lookup (tableKey cs name)) (fs.lookup (tablePath root cs name))
  key : ∀ key ∈ tables, ∃ cs name, NamesOk cs ∧ TableName name ∧ key = tableKey cs name
  below : ∀ path ∈ fs.below root,
    (∃ cs, NamesOk cs ∧ path = join root cs ∧ fs.isDirectory path) ∨
      ∃ cs name, NamesOk cs ∧ TableName name ∧ path = tablePath root cs name

variable {root : Path} {tables : MemoryTables δ} {fs : FileSystem} {cs : List String} {name : String}

theorem root_suffix_tablePath : root <:+ tablePath root cs name := by
  unfold tablePath join
  exact (List.suffix_append _ _).trans (List.suffix_cons _ _)

theorem tablePath_ne_root : tablePath root cs name ≠ root := by
  intro heq
  have hlength := congrArg List.length heq
  simp only [tablePath, join, List.length_cons, List.length_append] at hlength
  omega

/-- Without tables and with nothing below the root. -/
theorem SameStore.empty (htree : fs.Tree) (hdirectory : fs.isDirectory root)
    (hempty : fs.below root = []) : SameStore root (∅ : MemoryTables δ) fs where
  tree := htree
  directory := hdirectory
  table {cs name} _ _ := by
    refine .none (Finmap.lookup_empty _) ?_
    by_contra hlookup
    have hmem := mem_below.mpr ⟨hlookup, root_suffix_tablePath, tablePath_ne_root⟩
    rw [hempty] at hmem
    exact List.not_mem_nil hmem
  key key hkey := absurd hkey Finmap.notMem_empty
  below path hpath := by
    rw [hempty] at hpath
    exact absurd hpath List.not_mem_nil

/-- What is above a namespace and below the root is a namespace. -/
theorem namespace_above {path : Path} (hcs : NamesOk cs) (hroot : root <:+ path)
    (hpath : path <:+ join root cs) : ∃ cs', NamesOk cs' ∧ path = join root cs' := by
  obtain ⟨front, rfl⟩ := hroot
  have hfront : front <:+ cs.reverse := List.suffix_append_self_iff.mp hpath
  refine ⟨front.reverse, fun part hpart => ?_, by rw [join, List.reverse_reverse]⟩
  exact hcs part (List.mem_reverse.mp (hfront.subset (List.mem_reverse.mp hpart)))

/-! ### Reading -/

/-- No file is in the way of a namespace. -/
theorem SameStore.unobstructed (h : SameStore root tables fs) (hcs : NamesOk cs) :
    Unobstructed fs (join root cs) := by
  intro above habove hfile
  obtain ⟨hne, content, hlookup⟩ := isFile_iff.mp hfile
  have hsome : fs.lookup above ≠ none := by
    rw [hlookup]
    exact Option.some_ne_none _
  by_cases hlength : above.length ≤ root.length
  · -- the path is the root or above it
    have hsuffix : above <:+ root :=
      List.suffix_of_suffix_length_le habove (List.suffix_append _ _) hlength
    by_cases hsame : above = root
    · rw [hsame] at hfile
      exact not_isFile_of_isDirectory h.directory hfile
    rcases isDirectory_iff.mp h.directory with hroot | hroot
    · rw [hroot] at hsuffix
      exact hne (List.eq_nil_of_suffix_nil hsuffix)
    · have hdirectory := h.tree.above (by rw [hroot]; simp) hsuffix hsame
      exact not_isFile_of_isDirectory hdirectory hfile
  · have hsuffix : root <:+ above :=
      List.suffix_of_suffix_length_le (List.suffix_append _ _) habove (by omega)
    have hmem : above ∈ fs.below root :=
      mem_below.mpr ⟨hsome, hsuffix, fun heq => hlength (by rw [heq])⟩
    rcases h.below above hmem with ⟨_, -, -, hdirectory⟩ | ⟨cs', name, -, -, hpath⟩
    · exact not_isFile_of_isDirectory hdirectory hfile
    · obtain ⟨above', hok, hjoin⟩ := namespace_above hcs hsuffix habove
      exact join_ne_tablePath hok (hjoin.symm.trans hpath)

theorem SameStore.unobstructed_table (h : SameStore root tables fs) (hcs : NamesOk cs)
    (hnone : fs.lookup (tablePath root cs name) = none) :
    (tablePath root cs name).tails.any fs.isFile = false := by
  rw [List.any_eq_false]
  intro above habove hfile
  rw [List.mem_tails] at habove
  rcases List.suffix_cons_iff.mp habove with rfl | habove
  · obtain ⟨-, content, hlookup⟩ := isFile_iff.mp hfile
    rw [tablePath] at hnone
    rw [hlookup] at hnone
    cases hnone
  · exact h.unobstructed hcs above habove hfile

/-- What is at the path of a table. -/
theorem SameStore.metadata (h : SameStore root tables fs) (hcs : NamesOk cs) (hname : TableName name) :
    (tables.lookup (tableKey cs name) = none ∧
      fs.metadata (tablePath root cs name) = .error .notFound) ∨
    ∃ value bytes, tables.lookup (tableKey cs name) = some value ∧
      fs.metadata (tablePath root cs name) = .ok (.file bytes) ∧ finishRead bytes = .ok value := by
  have hne : tablePath root cs name ≠ [] := List.cons_ne_nil _ _
  unfold FileSystem.metadata
  rw [if_neg hne]
  cases h.table hcs hname with
  | none hmemory hfile =>
    refine .inl ⟨hmemory, ?_⟩
    rw [hfile]
    dsimp only
    rw [h.unobstructed_table hcs hfile]
    rfl
  | @some value bytes hmemory hfile hread =>
    refine .inr ⟨value, bytes, hmemory, ?_, hread⟩
    rw [hfile]

theorem parquet_ne_empty (name : String) : name ++ ".parquet" ≠ "" := by
  intro heq
  have hlength := congrArg (fun text => text.toList.length) heq
  simp at hlength

theorem SameStore.get (h : SameStore root tables fs) (hcs : NamesOk cs) (hname : TableName name) :
    (tables.lookup (tableKey cs name) = none ∧
      FileStorage.get ⟨root, cs⟩ (name ++ ".parquet") fs = .ok none) ∨
    ∃ value bytes, tables.lookup (tableKey cs name) = some value ∧
      FileStorage.get ⟨root, cs⟩ (name ++ ".parquet") fs = .ok (some bytes) ∧
      finishRead bytes = .ok value := by
  unfold FileStorage.get
  rw [logicalPath_tableObject hname]
  simp only [bind, Except.bind, FileStorage.node_eq (parquet_ne_empty name)]
  rcases h.metadata hcs hname with ⟨hmemory, hfile⟩ | ⟨value, bytes, hmemory, hfile, hread⟩
  · refine .inl ⟨hmemory, ?_⟩
    rw [hfile]
  · refine .inr ⟨value, bytes, hmemory, ?_, hread⟩
    rw [hfile]

theorem tableObject_ok (hname : TableName name) : tableObject name = .ok (name ++ ".parquet") := by
  unfold tableObject
  rw [validateTableName_ok hname]
  rfl

section

variable (h : SameStore root tables fs)
include h

/-- What is read of a table is what memory has. -/
theorem SameStore.readOptional (hcs : NamesOk cs) (hname : TableName name) :
    ParquetTableProvider.readOptional ⟨⟨root, cs⟩⟩ name fs =
      .ok (tables.lookup (tableKey cs name)) := by
  unfold ParquetTableProvider.readOptional
  rw [tableObject_ok hname]
  rcases h.get hcs hname with ⟨hmemory, hget⟩ | ⟨value, bytes, hmemory, hget, hread⟩
  · rw [hmemory]
    simp only [bind, Except.bind, hget]
  · rw [hmemory]
    simp only [bind, Except.bind, hget, readParquetDataframe, hread]
    rfl

theorem SameStore.has (hcs : NamesOk cs) (hname : TableName name) :
    ParquetTableProvider.has ⟨⟨root, cs⟩⟩ name fs =
      .ok (decide (tableKey cs name ∈ tables)) := by
  unfold ParquetTableProvider.has FileStorage.has
  rw [tableObject_ok hname]
  simp only [bind, Except.bind, logicalPath_tableObject hname,
    FileStorage.node_eq (parquet_ne_empty name)]
  rcases h.metadata hcs hname with ⟨hmemory, hfile⟩ | ⟨value, bytes, hmemory, hfile, -⟩
  · rw [hfile, decide_eq_false (Finmap.lookup_eq_none.mp hmemory)]
  · rw [hfile, decide_eq_true (Finmap.mem_of_lookup_eq_some hmemory)]
    simp

/-! ### Writing -/

theorem SameStore.set (hcs : NamesOk cs) (hname : TableName name)
    {value : δ} {bytes : String} (hread : finishRead bytes = .ok value) :
    ∃ fs', FileStorage.set ⟨root, cs⟩ (name ++ ".parquet") bytes fs = (.ok (), fs') ∧
      SameStore root (tables.insert (tableKey cs name) value) fs' := by
  have hfree := h.unobstructed hcs
  obtain ⟨fs₁, hcreate, hmade⟩ : ∃ fs₁,
      FileSystem.createDirAll (fun _ => false) (join root cs) fs = (.ok (), fs₁) ∧
      MadeDirectories fs (fun q => Missing fs q ∧ q <:+ join root cs) fs₁ := by
    rcases createDirAll_spec (fun _ => false) h.tree hfree (MadeDirectories.none fs) with
      ⟨fs₁, hcreate, hmade, -⟩ | ⟨_, _, _, -, -, -, -, hfails, -⟩
    · exact ⟨fs₁, hcreate, hmade.congr fun q => by simp⟩
    · cases hfails
  -- the path of a table is no namespace, so nothing has been made there
  have hother : ∀ {cs' name'}, TableName name' →
      fs₁.lookup (tablePath root cs' name') = fs.lookup (tablePath root cs' name') := by
    intro cs' name' hname'
    refine hmade.other _ fun hmade' => ?_
    obtain ⟨cs'', hok, hjoin⟩ := namespace_above hcs root_suffix_tablePath hmade'.2
    exact join_ne_tablePath hok hjoin.symm
  have hpath : ¬ fs₁.isDirectory (tablePath root cs name) := by
    rw [isDirectory_iff, hother hname]
    rintro (hnil | hdirectory)
    · cases hnil
    · cases h.table hcs hname with
      | none _ hfile =>
        rw [hfile] at hdirectory
        cases hdirectory
      | some _ hfile _ =>
        rw [hfile] at hdirectory
        cases hdirectory
  have hset : FileStorage.set ⟨root, cs⟩ (name ++ ".parquet") bytes fs =
      (.ok (), fs₁.insert (tablePath root cs name) (.file bytes)) := by
    unfold FileStorage.set
    rw [logicalPath_tableObject hname]
    dsimp only
    rw [show (tablePath root cs name).tail = join root cs from rfl, hcreate]
    dsimp only
    have hne := parquet_ne_empty name
    rw [if_neg (fun h => hne h.1), if_neg (fun h => h.elim hne hpath)]
    rfl
  refine ⟨_, hset, ?_⟩
  have hkeep : ∀ q, fs₁.isDirectory q →
      FileSystem.isDirectory (fs₁.insert (tablePath root cs name) (.file bytes)) q := by
    intro q hq
    have hdiffer : q ≠ tablePath root cs name := by
      rintro rfl
      exact hpath hq
    rw [isDirectory_iff, Finmap.lookup_insert_of_ne _ hdiffer]
    exact isDirectory_iff.mp hq
  have hparent : fs₁.isDirectory (join root cs) :=
    hmade.isDirectory_of_unobstructed hfree fun hmissing => ⟨hmissing, List.suffix_refl _⟩
  have htree : fs₁.Tree := hmade.tree h.tree fun q hq above habove =>
    hfree above (habove.trans hq.2)
  constructor
  · refine tree_insert_file htree ?_ hpath bytes
    exact hparent
  · exact hkeep root (hmade.isDirectory h.directory)
  · intro cs' name' hcs' hname'
    by_cases hsame : cs' = cs ∧ name' = name
    · obtain ⟨rfl, rfl⟩ := hsame
      exact .some (Finmap.lookup_insert _) (Finmap.lookup_insert _) hread
    · have hkey : tableKey cs' name' ≠ tableKey cs name := fun heq =>
        hsame (tableKey_injective hcs' hcs hname' hname heq)
      have hdiffer : tablePath root cs' name' ≠ tablePath root cs name := fun heq =>
        hsame (tablePath_injective heq)
      rw [Finmap.lookup_insert_of_ne _ hkey, Finmap.lookup_insert_of_ne _ hdiffer, hother hname']
      exact h.table hcs' hname'
  · intro key hkey
    rcases Finmap.mem_insert.mp hkey with rfl | hkey
    · exact ⟨cs, name, hcs, hname, rfl⟩
    · exact h.key key hkey
  · intro path hmem
    obtain ⟨hlookup, hroot, hne⟩ := mem_below.mp hmem
    by_cases hsame : path = tablePath root cs name
    · exact .inr ⟨cs, name, hcs, hname, hsame⟩
    rw [Finmap.lookup_insert_of_ne _ hsame] at hlookup
    by_cases hnew : Missing fs path ∧ path <:+ join root cs
    · obtain ⟨cs', hok, hjoin⟩ := namespace_above hcs hroot hnew.2
      exact .inl ⟨cs', hok, hjoin, hkeep path
        (isDirectory_iff.mpr (.inr (hmade.directory path hnew)))⟩
    · rw [hmade.other path hnew] at hlookup
      rcases h.below path (mem_below.mpr ⟨hlookup, hroot, hne⟩) with
        ⟨cs', hok, hjoin, hdirectory⟩ | htable
      · exact .inl ⟨cs', hok, hjoin, hkeep path (hmade.isDirectory hdirectory)⟩
      · exact .inr htable

/-! ### Listing -/

/-- What a path below a namespace is listed as. -/
theorem foundKey_listed_iff (hcs : NamesOk cs) {path : Path}
    (hpath : path ∈ fs.below (join root cs)) :
    (foundKey (join root cs) "" (fun key => endsWith ".parquet" key) fs path).bind
        ParquetTableProvider.listed = some name ↔
      TableName name ∧ path = tablePath root cs name := by
  obtain ⟨hlookup, hsuffix, hne⟩ := mem_below.mp hpath
  constructor
  · intro hlisted
    obtain ⟨logical, hfound, hname⟩ := Option.bind_eq_some_iff.mp hlisted
    unfold foundKey at hfound
    split at hfound
    · cases hfound
    rename_i hkind
    rw [not_or, not_not] at hkind
    obtain ⟨hmap, -⟩ := Option.filter_eq_some_iff.mp hfound
    obtain ⟨relative, hstrip, rfl⟩ := Option.map_eq_some_iff.mp hmap
    rw [stripBase_eq_some_iff] at hstrip
    obtain ⟨hstripped, hslash⟩ := Option.filter_eq_some_iff.mp hname
    rw [stripSuffix_eq_some_iff] at hstripped
    have hroot : path ∈ fs.below root := by
      refine mem_below.mpr ⟨hlookup, (List.suffix_append _ _).trans hsuffix, ?_⟩
      rintro rfl
      exact hne ((List.suffix_append cs.reverse path).eq_of_length_le hsuffix.length_le)
    rcases h.below path hroot with ⟨_, -, -, hdirectory⟩ | ⟨cs', name', -, hname', htable⟩
    · exact absurd hdirectory hkind.1
    have hparts : cs ++ relative = cs' ++ [name' ++ ".parquet"] := by
      have hjoin : join root (cs ++ relative) = join root (cs' ++ [name' ++ ".parquet"]) := by
        rw [join_append, ← hstrip, htable]
        simp [tablePath, join]
      exact join_injective hjoin
    rcases List.eq_nil_or_concat relative with rfl | ⟨mid, last, rfl⟩
    · exact absurd hstrip hne
    rw [List.concat_eq_append, ← List.append_assoc] at hparts
    obtain ⟨hcs', hlast⟩ := List.append_inj' hparts rfl
    obtain rfl : last = name' ++ ".parquet" := (List.cons.inj hlast).1
    rw [List.concat_eq_append] at hstripped
    -- a directory between the namespace and the file leaves a slash in the name
    by_cases hmid : mid = []
    · subst hmid
      rw [List.nil_append, pathToLogical, String.intercalate_singleton,
        String.append_left_inj] at hstripped
      rw [← hstripped]
      exact ⟨hname', by rw [htable, ← hcs', List.append_nil]⟩
    · exfalso
      rw [pathToLogical, String.intercalate_append_of_ne_nil hmid (by simp),
        String.intercalate_singleton, ← String.append_assoc, String.append_left_inj] at hstripped
      rw [← hstripped] at hslash
      simp at hslash
  · rintro ⟨hname, rfl⟩
    obtain ⟨bytes, hbytes⟩ : ∃ bytes, fs.lookup (tablePath root cs name) = some (.file bytes) := by
      cases h.table hcs hname with
      | none _ hfile => exact absurd hfile hlookup
      | some _ hfile _ => exact ⟨_, hfile⟩
    have hne' : tablePath root cs name ≠ [] := List.cons_ne_nil _ _
    have hfile : fs.isFile (tablePath root cs name) :=
      isFile_iff.mpr ⟨hne', bytes, hbytes⟩
    have hdirectory : ¬ fs.isDirectory (tablePath root cs name) := fun hdirectory =>
      not_isFile_of_isDirectory hdirectory hfile
    have hstrip : stripBase (join root cs) (tablePath root cs name) = some [name ++ ".parquet"] := by
      rw [stripBase_eq_some_iff]
      rfl
    have hstart : startsWith "" (name ++ ".parquet") := startsWith_iff.mpr ⟨name ++ ".parquet", by simp⟩
    have hend : endsWith ".parquet" (name ++ ".parquet") := endsWith_iff.mpr ⟨_, rfl⟩
    have hlisted : ParquetTableProvider.listed (name ++ ".parquet") = some name := by
      unfold ParquetTableProvider.listed
      rw [stripSuffix_eq_some_iff.mpr rfl]
      simpa using hname.isName.2
    unfold foundKey
    rw [if_neg (by simp [hdirectory, hfile]), hstrip]
    have hfilter : (some (name ++ ".parquet")).filter (fun logical =>
        startsWith "" logical && endsWith ".parquet" logical) = some (name ++ ".parquet") :=
      Option.filter_eq_some_iff.mpr ⟨rfl, by rw [hstart, hend]; rfl⟩
    rw [Option.map_some, pathToLogical, String.intercalate_singleton, hfilter, Option.bind_some,
      hlisted]

/-- What is listed of the files: the tables of the namespace itself. -/
theorem parquet_list (hcs : NamesOk cs) : ∃ names : List String,
      ParquetTableProvider.list ⟨⟨root, cs⟩⟩ fs = .ok (names.mergeSort (· ≤ ·)) ∧
      names.Nodup ∧ ∀ name, name ∈ names ↔ TableName name ∧ tableKey cs name ∈ tables := by
  let key := foundKey (join root cs) "" (fun key => endsWith ".parquet" key) fs
  refine ⟨((fs.below (join root cs)).filterMap key).filterMap ParquetTableProvider.listed,
    ?_, ?_, ?_⟩
  · unfold ParquetTableProvider.list
    rw [find_eq h.tree (h.unobstructed hcs)]
    simp only [bind, Except.bind]
    rw [mergeSort_eq_iff_perm.mpr ((List.mergeSort_perm _ _).filterMap _)]
  · rw [List.filterMap_filterMap, List.Nodup, List.pairwise_filterMap]
    refine FileSystem.nodup_below.imp_of_mem fun hleft hright hne name hname name' hname' => ?_
    rintro rfl
    rw [foundKey_listed_iff h hcs hleft] at hname
    rw [foundKey_listed_iff h hcs hright] at hname'
    exact hne (hname.2.trans hname'.2.symm)
  · intro name
    rw [List.filterMap_filterMap, List.mem_filterMap]
    constructor
    · rintro ⟨path, hpath, hname⟩
      rw [foundKey_listed_iff h hcs hpath] at hname
      obtain ⟨hname, rfl⟩ := hname
      refine ⟨hname, ?_⟩
      cases h.table hcs hname with
      | none _ hfile => exact absurd hfile (mem_below.mp hpath).1
      | some hmemory _ _ => exact Finmap.mem_of_lookup_eq_some hmemory
    · rintro ⟨hname, hkey⟩
      have hlookup : fs.lookup (tablePath root cs name) ≠ none := by
        cases h.table hcs hname with
        | none hmemory _ => exact absurd hkey (Finmap.lookup_eq_none.mp hmemory)
        | some _ hfile _ =>
          rw [hfile]
          exact Option.some_ne_none _
      have hpath : tablePath root cs name ∈ fs.below (join root cs) :=
        mem_below.mpr ⟨hlookup, List.suffix_cons _ _, List.cons_ne_self _ _⟩
      exact ⟨_, hpath, (foundKey_listed_iff h hcs hpath).mpr ⟨hname, rfl⟩⟩

end

variable {view : MemoryTableProvider}

/-- What is listed as a name is that name in the namespace. -/
theorem listed_eq_some_iff {key : String} : view.listed key = some name ↔
      key = if view.nspace = "" then name else view.nspace ++ "/" ++ name := by
  unfold MemoryTableProvider.listed stripNamespace
  by_cases hempty : view.nspace = ""
  · simp [hempty]
  rw [if_neg hempty, if_neg hempty]
  simp only [hempty, false_or]
  constructor
  · intro h
    split at h
    · rename_i hstart
      obtain ⟨rest, rfl⟩ := startsWith_iff.mp hstart
      rw [stripPrefix_eq_some_iff.mpr String.append_assoc, Option.bind_some,
        stripPrefix_eq_some_iff.mpr rfl] at h
      rw [← Option.some.inj h]
      rfl
    · cases h
  · rintro rfl
    rw [if_pos (startsWith_iff.mpr ⟨_, rfl⟩),
      stripPrefix_eq_some_iff.mpr String.append_assoc, Option.bind_some,
      stripPrefix_eq_some_iff.mpr rfl]
    rfl

/-- The key of a table under a view of a namespace, as the view lists it. -/
theorem tableKey_listed_iff (hview : view.nspace = "/".intercalate cs)
    (hcs : NamesOk cs) {cs' : List String} (hcs' : NamesOk cs') {name' : String}
    (hname' : TableName name') :
    view.listed (tableKey cs' name') = some name ↔
      ∃ mid, cs' = cs ++ mid ∧ name = tableKey mid name' := by
  rw [listed_eq_some_iff, hview]
  by_cases hnil : cs = []
  · rw [hnil, String.intercalate_nil, if_pos rfl]
    constructor
    · rintro rfl
      exact ⟨cs', rfl, rfl⟩
    · rintro ⟨mid, rfl, rfl⟩
      rfl
  rw [if_neg (intercalate_ne_empty (fun part hpart => (hcs part hpart).isName) hnil)]
  constructor
  · intro hkey
    -- the pieces of the key are those of the namespace and those of the rest
    have hpieces := congrArg pieces hkey
    rw [tableKey, pieces_intercalate (fun part hpart => (isName_of_tableKey hcs' hname' part hpart).2)
      (by simp), pieces_append,
      pieces_intercalate (fun part hpart => (hcs part hpart).isName.2) hnil] at hpieces
    have hsome : pieces name ≠ [] := by simp [pieces]
    rcases List.eq_nil_or_concat (pieces name) with hrest | ⟨mid, last, hrest⟩
    · exact absurd hrest hsome
    rw [hrest, List.concat_eq_append, ← List.append_assoc] at hpieces
    obtain ⟨hmid, hlast⟩ := List.append_inj' hpieces rfl
    obtain rfl : name' = last := (List.cons.inj hlast).1
    refine ⟨mid, hmid, ?_⟩
    rw [tableKey, ← List.concat_eq_append, ← hrest, intercalate_pieces]
  · rintro ⟨mid, rfl, rfl⟩
    exact tableKey_append hnil mid name'

/-- What is listed of the tables in memory: those of the namespace and of the namespaces below. -/
theorem memory_list (h : SameStore root tables fs) (hcs : NamesOk cs)
    (hview : view.nspace = "/".intercalate cs) :
    ∃ names : List String, view.list tables = .ok (names.mergeSort (· ≤ ·)) ∧ names.Nodup ∧
      ∀ name, name ∈ names ↔ ∃ mid name', NamesOk mid ∧ TableName name' ∧
        name = tableKey mid name' ∧ tableKey (cs ++ mid) name' ∈ tables := by
  refine ⟨_, rfl, ?_, ?_⟩
  · rw [List.Nodup, List.pairwise_filterMap]
    refine (Finset.sort_nodup _ _).imp fun hne name hname name' hname' => ?_
    rintro rfl
    rw [listed_eq_some_iff] at hname hname'
    exact hne (hname.trans hname'.symm)
  · intro name
    rw [List.mem_filterMap]
    constructor
    · rintro ⟨key, hkey, hlisted⟩
      rw [mem_sortedNames, Finmap.mem_keys] at hkey
      obtain ⟨cs', name', hcs', hname', rfl⟩ := h.key key hkey
      obtain ⟨mid, rfl, hname⟩ := (tableKey_listed_iff hview hcs hcs' hname').mp hlisted
      exact ⟨mid, name', fun part hpart => hcs' part (List.mem_append_right _ hpart), hname', hname,
        hkey⟩
    · rintro ⟨mid, name', hmid, hname', hname, hkey⟩
      refine ⟨_, by rw [mem_sortedNames, Finmap.mem_keys]; exact hkey, ?_⟩
      exact (tableKey_listed_iff hview hcs (hcs.append hmid) hname').mpr ⟨mid, rfl, hname⟩

/-- The lists are the same exactly when no table lies in a namespace below. -/
theorem list_eq_iff (h : SameStore root tables fs) (hcs : NamesOk cs) :
    ∃ names names', MemoryTableProvider.list ⟨"/".intercalate cs⟩ tables = .ok names ∧
      ParquetTableProvider.list ⟨⟨root, cs⟩⟩ fs = .ok names' ∧
      (names = names' ↔ ∀ mid name, NamesOk mid → TableName name →
        tableKey (cs ++ mid) name ∈ tables → mid = []) := by
  obtain ⟨names, hparquet, hnodup, hmem⟩ := parquet_list h hcs
  obtain ⟨names', hmemory, hnodup', hmem'⟩ := memory_list h hcs rfl
  refine ⟨_, _, hmemory, hparquet, ?_⟩
  rw [mergeSort_eq_iff_perm, List.perm_ext_iff_of_nodup hnodup' hnodup]
  have hslash : ∀ {mid name}, TableName (tableKey mid name) → mid = [] := by
    intro mid name hname
    by_contra hmid
    have hnot := hname.isName.2
    rw [tableKey, String.intercalate_append_of_ne_nil hmid (by simp)] at hnot
    simp at hnot
  constructor
  · intro hsame mid name hmid hname hkey
    have hlisted := (hmem' (tableKey mid name)).mpr ⟨mid, name, hmid, hname, rfl, hkey⟩
    exact hslash ((hmem _).mp ((hsame _).mp hlisted)).1
  · intro hbelow name
    rw [hmem, hmem']
    constructor
    · rintro ⟨mid, name', hmid, hname', rfl, hkey⟩
      obtain rfl := hbelow mid name' hmid hname' hkey
      rw [List.append_nil] at hkey
      exact ⟨hname', hkey⟩
    · rintro ⟨hname, hkey⟩
      refine ⟨[], name, fun part hpart => absurd hpart List.not_mem_nil, hname, ?_, ?_⟩
      · simp [tableKey]
      · rwa [List.append_nil]

end GraphLoom.Storage
