import GraphLoom.Storage.Equiv.Store
import GraphLoom.Storage.Session

/-!
## Sessions with both providers

`memory_replies_eq_iff`: a session is told the same by both providers exactly when each list that it
asks for is one of a view without tables in namespaces below.  In memory such tables are listed with
the names of the namespaces, among files they are not.

The sessions are those that never take the empty namespace as a child of another one: in memory it
gives a namespace that ends with a slash, among files the same directory.

Views and handles correspond by their numbers, and the stores are the same (`SameSession`).  Each
call keeps that (`SameSession.step`).
-/

namespace GraphLoom.Storage

open Foundation DataFrame

variable {δ ν : Type} [DataFrame δ ν]

/-! ### Conditions -/

/-- No name that the call gives a namespace ends like that of a Parquet file. -/
def Call.NoParquetName : Call δ → Prop
  | .child _ (some nspace) => ∀ names, validateLogicalPath nspace = .ok names →
    ∀ name ∈ names, ¬ endsWith ".parquet" name
  | _ => True

/-- A child of the view, with another namespace, has a table. -/
def TableBelow (view : MemoryTableProvider) (tables : MemoryTables δ) : Prop :=
  ∃ nspace child tableName, nspace ≠ "" ∧ view.child (some nspace) = .ok child ∧
    child.has tableName tables = .ok true

abbrev MemorySession (δ : Type) := SessionState (MemoryTables δ) MemoryTableProvider (MemoryTable δ)

abbrev ParquetSession (δ : Type) := SessionState FileSystem ParquetTableProvider (ParquetTable δ)

/-- The empty namespace is a child only of itself. -/
def ChildOk (state : MemorySession δ) : Call δ → Prop
  | .child view (some nspace) => nspace = "" → ∀ parent, state.views[view]? = some parent →
    parent.nspace = ""
  | _ => True

/-- What is listed has no tables in namespaces below. -/
def ListOk (state : MemorySession δ) : Call δ → Prop
  | .list view => ∀ parent, state.views[view]? = some parent → ¬ TableBelow parent state.store
  | _ => True

def memorySession (δ : Type) {ν : Type} [DataFrame δ ν] :
    Machine (MemorySession δ) (Call δ) (Except ErrorVariant (Value δ ν)) :=
  session memoryProvider ∅ ⟨""⟩

/-- The sessions over the files below a root. -/
def parquetSession (δ : Type) {ν : Type} [DataFrame δ ν] (root : Path) (fs : FileSystem) :
    Machine (ParquetSession δ) (Call δ) (Except ErrorVariant (Value δ ν)) :=
  session parquetProvider fs ⟨⟨root, []⟩⟩

/-! ### Views and handles -/

inductive SameView (root : Path) : MemoryTableProvider → ParquetTableProvider → Prop
  | mk {cs : List String} (hcs : NamesOk cs) : SameView root ⟨"/".intercalate cs⟩ ⟨⟨root, cs⟩⟩

inductive SameTable (root : Path) : MemoryTable δ → ParquetTable δ → Prop
  | mk {cs : List String} {name : String} (hcs : NamesOk cs) (hname : TableName name)
      (staged : StagedTable δ) :
      SameTable root ⟨tableKey cs name, staged⟩ ⟨⟨root, cs⟩, name ++ ".parquet", staged⟩

structure SameSession (root : Path) (state : MemorySession δ) (state' : ParquetSession δ) : Prop where
  store : SameStore root state.store state'.store
  views : List.Forall₂ (SameView root) state.views state'.views
  handles : List.Forall₂ (SameTable root) state.handles state'.handles

variable {root : Path} {tables : MemoryTables δ} {fs : FileSystem} {cs : List String} {name : String}

theorem nspace_eq_empty_iff (hcs : ∀ part ∈ cs, IsName part) : "/".intercalate cs = "" ↔ cs = [] := by
  constructor
  · intro hempty
    by_contra hnil
    exact intercalate_ne_empty hcs hnil hempty
  · rintro rfl
    rfl

theorem key_ok (hcs : ∀ part ∈ cs, IsName part) (hname : TableName name) :
    MemoryTableProvider.key ⟨"/".intercalate cs⟩ name = .ok (tableKey cs name) := by
  unfold MemoryTableProvider.key
  rw [validateTableName_ok hname]
  simp only [bind, Except.bind, nspace_eq_empty_iff hcs]
  by_cases hnil : cs = []
  · rw [if_pos hnil, hnil]
    simp [tableKey]
  · rw [if_neg hnil, tableKey, String.intercalate_append_of_ne_nil hnil (by simp)]
    simp

/-- A name that is not valid is refused by both providers with one error. -/
theorem name_refused (view : MemoryTableProvider) (h : ¬ TableName name) :
    ∃ reason, view.key name = .error (.invalidPath name reason) ∧
      tableObject name = .error (.invalidPath name reason) := by
  obtain ⟨reason, hreason⟩ := validateTableName_error h
  refine ⟨reason, ?_, ?_⟩
  · unfold MemoryTableProvider.key
    rw [hreason]
    rfl
  · unfold tableObject
    rw [hreason]
    rfl

/-! ### Children -/

/-- The namespace of a child has the names of its path behind those of its parent. -/
theorem memory_child {path : String} {names : List String} (hcs : ∀ part ∈ cs, IsName part)
    (hvalid : validateLogicalPath path = .ok names) (hempty : path = "" → cs = []) :
    MemoryTableProvider.child ⟨"/".intercalate cs⟩ (some path) =
      .ok ⟨"/".intercalate (cs ++ names)⟩ := by
  unfold MemoryTableProvider.child
  dsimp only
  rw [hvalid]
  simp only [bind, Except.bind, nspace_eq_empty_iff hcs, pathToLogical]
  by_cases hnil : cs = []
  · rw [if_pos hnil, hnil, List.nil_append]
  · have hne : names ≠ [] := names_ne_nil (fun hpath => hnil (hempty hpath)) hvalid
    rw [if_neg hnil, String.intercalate_append_of_ne_nil hnil hne]

/-- The children of a view, in both providers. -/
theorem child_same (root : Path) (hcs : NamesOk cs) {nspace : Option String}
    (hparquet : ∀ path names, nspace = some path → validateLogicalPath path = .ok names →
      ∀ name ∈ names, ¬ endsWith ".parquet" name)
    (hempty : nspace = some "" → cs = []) :
    (∃ error, MemoryTableProvider.child ⟨"/".intercalate cs⟩ nspace = .error error ∧
      ParquetTableProvider.child ⟨⟨root, cs⟩⟩ nspace = .error error) ∨
    ∃ names, NamesOk names ∧
      MemoryTableProvider.child ⟨"/".intercalate cs⟩ nspace = .ok ⟨"/".intercalate (cs ++ names)⟩ ∧
      ParquetTableProvider.child ⟨⟨root, cs⟩⟩ nspace = .ok ⟨⟨root, cs ++ names⟩⟩ := by
  cases nspace with
  | none =>
    refine .inr ⟨[], fun part hpart => absurd hpart List.not_mem_nil, ?_⟩
    rw [List.append_nil]
    exact ⟨rfl, rfl⟩
  | some path =>
    by_cases hvalid : ∃ names, validateLogicalPath path = .ok names
    · obtain ⟨names, hvalid⟩ := hvalid
      have hok : NamesOk names := fun part hpart =>
        ⟨safe_of_validateLogicalPath hvalid part hpart, hparquet path names rfl hvalid part hpart⟩
      have hmemory := memory_child (fun part hpart => (hcs part hpart).isName) hvalid fun hpath =>
        hempty (by rw [hpath])
      refine .inr ⟨names, hok, hmemory, ?_⟩
      unfold ParquetTableProvider.child FileStorage.child
      dsimp only
      rw [hvalid]
      rfl
    · obtain ⟨reason, hreason⟩ :=
        validateLogicalPath_error fun names hnames => hvalid ⟨names, hnames⟩
      unfold MemoryTableProvider.child ParquetTableProvider.child FileStorage.child
      dsimp only
      rw [hreason]
      exact .inl ⟨_, rfl, rfl⟩

theorem isName_of_safe {part : String} (h : isSafePathComponent part) : IsName part := by
  obtain ⟨hne, -, -, -, hslash, -⟩ := isSafePathComponent_iff.mp h
  exact ⟨hne, hslash⟩

/-- No child of a view has a table exactly when no table lies in a namespace below. -/
theorem not_tableBelow_iff (h : SameStore root tables fs) (hcs : NamesOk cs) :
    ¬ TableBelow ⟨"/".intercalate cs⟩ tables ↔
      ∀ mid name, NamesOk mid → TableName name → tableKey (cs ++ mid) name ∈ tables → mid = [] := by
  have hnames : ∀ part ∈ cs, IsName part := fun part hpart => (hcs part hpart).isName
  constructor
  · intro hnot mid name hmid hname hkey
    by_contra hne
    have hnames' : ∀ part ∈ mid, IsName part := fun part hpart => (hmid part hpart).isName
    have hempty : "/".intercalate mid ≠ "" := fun hempty =>
      hne ((nspace_eq_empty_iff hnames').mp hempty)
    have hvalid := validateLogicalPath_intercalate fun part hpart => (hmid part hpart).1
    refine hnot ⟨_, _, name, hempty, memory_child hnames hvalid fun h => absurd h hempty, ?_⟩
    have hall : ∀ part ∈ cs ++ mid, IsName part := fun part hpart =>
      (hcs.append hmid part hpart).isName
    unfold MemoryTableProvider.has
    rw [key_ok hall hname]
    simp only [bind, Except.bind, hkey, decide_true]
  · rintro hbelow ⟨path, child, name, hpath, hchild, htable⟩
    by_cases hvalid : ∃ names, validateLogicalPath path = .ok names
    · obtain ⟨names, hvalid⟩ := hvalid
      have hsafe := safe_of_validateLogicalPath hvalid
      have hall : ∀ part ∈ cs ++ names, IsName part := by
        intro part hpart
        rcases List.mem_append.mp hpart with hpart | hpart
        · exact hnames part hpart
        · exact isName_of_safe (hsafe part hpart)
      rw [memory_child hnames hvalid fun h => absurd h hpath] at hchild
      obtain rfl := Except.ok.inj hchild
      unfold MemoryTableProvider.has at htable
      by_cases hname : TableName name
      · rw [key_ok hall hname] at htable
        have hkey : tableKey (cs ++ names) name ∈ tables := by simpa [bind, Except.bind] using htable
        -- the key is one of the store, so the names are those of a namespace
        obtain ⟨cs', name', hcs', hname', heq⟩ := h.key _ hkey
        have hparts : ∀ part ∈ cs ++ names ++ [name], IsName part := by
          intro part hpart
          rcases List.mem_append.mp hpart with hpart | hpart
          · exact hall part hpart
          · rw [List.mem_singleton.mp hpart]
            exact hname.isName
        have hlists := intercalate_injective hparts (isName_of_tableKey hcs' hname') heq
        obtain ⟨hsplit, -⟩ := List.append_inj' hlists rfl
        have hok : NamesOk names := fun part hpart =>
          hcs' part (by rw [← hsplit]; exact List.mem_append_right _ hpart)
        exact names_ne_nil hpath hvalid (hbelow names name hok hname hkey)
      · obtain ⟨reason, hreason, -⟩ := name_refused ⟨"/".intercalate (cs ++ names)⟩ hname
        rw [hreason] at htable
        cases htable
    · obtain ⟨reason, hreason⟩ :=
        validateLogicalPath_error fun names hnames => hvalid ⟨names, hnames⟩
      unfold MemoryTableProvider.child at hchild
      dsimp only at hchild
      rw [hreason] at hchild
      cases hchild

/-! ### Calls on handles -/

/-- The name of a table is in no value. -/
theorem staged_write_same (staged : StagedTable δ) (dataframe : δ) (name name' : String) :
    (observe (staged.write name dataframe).1 fun _ => (.unit : Value δ ν)) =
        observe (staged.write name' dataframe).1 (fun _ => .unit) ∧
      (staged.write name dataframe).2 = (staged.write name' dataframe).2 := by
  unfold StagedTable.write StagedTable.checkOpen
  by_cases hclosed : staged.closed
  · rw [if_pos hclosed, if_pos hclosed]
    exact ⟨rfl, rfl⟩
  · rw [if_neg hclosed, if_neg hclosed]
    exact ⟨rfl, rfl⟩

theorem SameStore.current (h : SameStore root tables fs) (hcs : NamesOk cs) (hname : TableName name)
    (staged : StagedTable δ) :
    ParquetTable.current ⟨⟨root, cs⟩, name ++ ".parquet", staged⟩ fs =
      .ok (if staged.truncate then none else tables.lookup (tableKey cs name)) := by
  unfold ParquetTable.current
  by_cases htruncate : staged.truncate
  · rw [if_pos htruncate, if_pos htruncate]
  rw [if_neg htruncate, if_neg htruncate]
  rcases h.get hcs hname with ⟨hmemory, hget⟩ | ⟨value, bytes, hmemory, hget, hread⟩
  · rw [hmemory]
    simp only [bind, Except.bind, hget]
  · rw [hmemory]
    simp only [bind, Except.bind, hget, readParquetDataframe, hread]
    rfl

theorem SameStore.write (hlossless : Lossless δ) (h : SameStore root tables fs) (hcs : NamesOk cs)
    (hname : TableName name) (dataframe : δ) :
    ∃ bytes fs', writeParquetDataframe dataframe = .ok bytes ∧
      FileStorage.set ⟨root, cs⟩ (name ++ ".parquet") bytes fs = (.ok (), fs') ∧
      SameStore root (tables.insert (tableKey cs name) dataframe) fs' := by
  obtain ⟨bytes, hwrite, hread⟩ := hlossless dataframe
  obtain ⟨fs', hset, hsame⟩ := h.set hcs hname hread
  refine ⟨bytes, fs', ?_, hset, hsame⟩
  unfold writeParquetDataframe
  rw [hwrite]
  rfl

theorem close_same (hlossless : Lossless δ) (h : SameStore root tables fs) {table : MemoryTable δ}
    {table' : ParquetTable δ} (htable : SameTable root table table') :
    (observe (table.close tables).1 fun _ => (.unit : Value δ ν)) =
        observe (table'.close fs).1 (fun _ => .unit) ∧
      SameTable root (table.close tables).2.1 (table'.close fs).2.1 ∧
      SameStore root (table.close tables).2.2 (table'.close fs).2.2 := by
  obtain ⟨hcs, hname, staged⟩ := htable
  unfold MemoryTable.close ParquetTable.close StagedTable.checkOpen
  dsimp only
  by_cases hclosed : staged.closed
  · rw [if_pos hclosed, if_pos hclosed]
    exact ⟨rfl, .mk hcs hname staged, h⟩
  rw [if_neg hclosed, if_neg hclosed]
  dsimp only
  by_cases hnothing : staged.nothingStaged
  · rw [if_pos hnothing, if_pos hnothing]
    exact ⟨rfl, .mk hcs hname _, h⟩
  rw [if_neg hnothing, if_neg hnothing, h.current hcs hname]
  simp only [bind, Except.bind]
  generalize (if staged.truncate then none else tables.lookup (tableKey _ _)) = existing
  cases appendOptionalDataframe existing staged.pending with
  | error error => exact ⟨rfl, .mk hcs hname staged, h⟩
  | ok dataframe =>
    obtain ⟨bytes, fs', hwrite, hset, hsame⟩ := h.write hlossless hcs hname dataframe
    dsimp only
    rw [hwrite]
    dsimp only
    rw [hset]
    exact ⟨rfl, .mk hcs hname _, hsame⟩

/-! ### Sessions -/

section

variable {state : MemorySession δ} {state' : ParquetSession δ} (h : SameSession root state state')
include h

/-- Calls of one view that answer alike, in states that are the same, keep the states the same. -/
theorem SameSession.onView (view : ℕ) {D : Prop}
    {call : MemoryTableProvider → Except ErrorVariant (Value δ ν) × MemorySession δ}
    {call' : ParquetTableProvider → Except ErrorVariant (Value δ ν) × ParquetSession δ}
    (hnone : state.views[view]? = none → D)
    (hcall : ∀ cs, NamesOk cs → state.views[view]? = some ⟨"/".intercalate cs⟩ →
      ((call ⟨"/".intercalate cs⟩).1 = (call' ⟨⟨root, cs⟩⟩).1 ↔ D) ∧
        SameSession root (call ⟨"/".intercalate cs⟩).2 (call' ⟨⟨root, cs⟩⟩).2) :
    ((onView state view call).1 = (Storage.onView state' view call').1 ↔ D) ∧
      SameSession root (Storage.onView state view call).2 (Storage.onView state' view call').2 := by
  unfold Storage.onView
  rcases forall₂_getElem? h.views view with ⟨hview, hview'⟩ | ⟨_, _, hview, hview', hsame⟩
  · rw [hview, hview']
    exact ⟨iff_of_true rfl (hnone hview), h⟩
  · rw [hview, hview']
    obtain ⟨hcs⟩ := hsame
    exact hcall _ hcs hview

/-- Calls of one handle likewise. -/
theorem SameSession.onHandle (handle : ℕ)
    {call : MemoryTable δ → Except ErrorVariant (Value δ ν) × MemorySession δ}
    {call' : ParquetTable δ → Except ErrorVariant (Value δ ν) × ParquetSession δ}
    (hcall : ∀ table table', SameTable root table table' →
      (call table).1 = (call' table').1 ∧ SameSession root (call table).2 (call' table').2) :
    ((Storage.onHandle state handle call).1 = (Storage.onHandle state' handle call').1 ↔ True) ∧
      SameSession root (Storage.onHandle state handle call).2
        (Storage.onHandle state' handle call').2 := by
  unfold Storage.onHandle
  rcases forall₂_getElem? h.handles handle with ⟨hhandle, hhandle'⟩ | ⟨_, _, hhandle, hhandle', hsame⟩
  · rw [hhandle, hhandle']
    exact ⟨iff_of_true rfl trivial, h⟩
  · rw [hhandle, hhandle']
    obtain ⟨hanswer, hnext⟩ := hcall _ _ hsame
    exact ⟨iff_of_true hanswer trivial, hnext⟩

theorem SameSession.setHandle (handle : ℕ)
    {table : MemoryTable δ} {table' : ParquetTable δ} (htable : SameTable root table table') :
    SameSession root (state.setHandle handle table) (state'.setHandle handle table') where
  store := h.store
  views := h.views
  handles := forall₂_set h.handles handle htable

/-- What a call on a view reads is the same. -/
theorem SameSession.reads (view : ℕ) {α : Type}
    (value : α → Value δ ν) {read : MemoryTableProvider → Except StorageError α}
    {read' : ParquetTableProvider → Except StorageError α}
    (hread : ∀ cs, NamesOk cs → read ⟨"/".intercalate cs⟩ = read' ⟨⟨root, cs⟩⟩) :
    ((Storage.onView state view fun parent => (observe (read parent) value, state)).1 =
        (Storage.onView state' view fun parent => (observe (read' parent) value, state')).1 ↔ True) ∧
      SameSession root (Storage.onView state view fun parent => (observe (read parent) value, state)).2
        (Storage.onView state' view fun parent => (observe (read' parent) value, state')).2 := by
  refine h.onView view (fun _ => trivial) fun cs hcs _ => ?_
  rw [hread cs hcs]
  exact ⟨iff_of_true rfl trivial, h⟩

end

theorem readDataframe_same (h : SameStore root tables fs) (hcs : NamesOk cs) (name : String) :
    MemoryTableProvider.readDataframe ⟨"/".intercalate cs⟩ name tables =
      ParquetTableProvider.readDataframe ⟨⟨root, cs⟩⟩ name fs := by
  unfold MemoryTableProvider.readDataframe ParquetTableProvider.readDataframe
  by_cases hname : TableName name
  · rw [key_ok (fun part hpart => (hcs part hpart).isName) hname, h.readOptional hcs hname]
    rfl
  · obtain ⟨reason, hkey, hobject⟩ := name_refused ⟨"/".intercalate cs⟩ hname
    rw [hkey, ParquetTableProvider.readOptional, hobject]
    rfl

/-- The default of the trait finds what the files give at once. -/
theorem readOptional_same (h : SameStore root tables fs) (hcs : NamesOk cs) (name : String) :
    defaultReadOptionalDataframe
        (MemoryTableProvider.readDataframe ⟨"/".intercalate cs⟩ name tables) =
      ParquetTableProvider.readOptional ⟨⟨root, cs⟩⟩ name fs := by
  unfold MemoryTableProvider.readDataframe
  by_cases hname : TableName name
  · rw [key_ok (fun part hpart => (hcs part hpart).isName) hname, h.readOptional hcs hname]
    simp only [bind, Except.bind]
    cases tables.lookup (tableKey cs name) with
    | none => rfl
    | some dataframe => rfl
  · obtain ⟨reason, hkey, hobject⟩ := name_refused ⟨"/".intercalate cs⟩ hname
    rw [hkey, ParquetTableProvider.readOptional, hobject]
    rfl

theorem has_same (h : SameStore root tables fs) (hcs : NamesOk cs) (name : String) :
    MemoryTableProvider.has ⟨"/".intercalate cs⟩ name tables =
      ParquetTableProvider.has ⟨⟨root, cs⟩⟩ name fs := by
  by_cases hname : TableName name
  · rw [h.has hcs hname, MemoryTableProvider.has,
      key_ok (fun part hpart => (hcs part hpart).isName) hname]
    rfl
  · obtain ⟨reason, hkey, hobject⟩ := name_refused ⟨"/".intercalate cs⟩ hname
    rw [MemoryTableProvider.has, hkey, ParquetTableProvider.has, hobject]
    rfl

theorem writeDataframe_same (hlossless : Lossless δ) (h : SameStore root tables fs)
    (hcs : NamesOk cs) (name : String) (dataframe : δ) :
    (MemoryTableProvider.writeDataframe ⟨"/".intercalate cs⟩ name dataframe tables).1 =
        (ParquetTableProvider.writeDataframe ⟨⟨root, cs⟩⟩ name dataframe fs).1 ∧
      SameStore root (MemoryTableProvider.writeDataframe ⟨"/".intercalate cs⟩ name dataframe tables).2
        (ParquetTableProvider.writeDataframe ⟨⟨root, cs⟩⟩ name dataframe fs).2 := by
  unfold MemoryTableProvider.writeDataframe ParquetTableProvider.writeDataframe
  by_cases hname : TableName name
  · obtain ⟨bytes, fs', hwrite, hset, hsame⟩ := h.write hlossless hcs hname dataframe
    rw [key_ok (fun part hpart => (hcs part hpart).isName) hname, tableObject_ok hname]
    dsimp only
    rw [hwrite]
    dsimp only
    rw [hset]
    exact ⟨rfl, hsame⟩
  · obtain ⟨reason, hkey, hobject⟩ := name_refused ⟨"/".intercalate cs⟩ hname
    rw [hkey, hobject]
    exact ⟨rfl, h⟩

theorem openTable_same (h : SameStore root tables fs) (hcs : NamesOk cs) (name : String)
    (truncate : Bool) :
    (∃ error, MemoryTableProvider.openTable ⟨"/".intercalate cs⟩ name truncate tables = .error error ∧
      ParquetTableProvider.openTable ⟨⟨root, cs⟩⟩ name truncate fs =
        (.error error : Except StorageError (ParquetTable δ))) ∨
    ∃ table table',
      MemoryTableProvider.openTable ⟨"/".intercalate cs⟩ name truncate tables = .ok table ∧
      ParquetTableProvider.openTable ⟨⟨root, cs⟩⟩ name truncate fs = .ok table' ∧
      SameTable root table table' := by
  unfold MemoryTableProvider.openTable ParquetTableProvider.openTable
  by_cases hname : TableName name
  · rw [key_ok (fun part hpart => (hcs part hpart).isName) hname, tableObject_ok hname]
    simp only [bind, Except.bind]
    cases truncate with
    | true => exact .inr ⟨_, _, rfl, rfl, .mk hcs hname _⟩
    | false =>
      simp only [Bool.false_eq_true, if_false]
      rw [h.readOptional hcs hname]
      exact .inr ⟨_, _, rfl, rfl, .mk hcs hname _⟩
  · obtain ⟨reason, hkey, hobject⟩ := name_refused ⟨"/".intercalate cs⟩ hname
    rw [hkey, hobject]
    exact .inl ⟨_, rfl, rfl⟩

/-- One call: the answers are the same exactly when it does not list tables of namespaces below. -/
theorem SameSession.step (hlossless : Lossless δ) {state : MemorySession δ}
    {state' : ParquetSession δ} (call : Call δ) (hparquet : call.NoParquetName)
    (h : SameSession root state state') (hchild : ChildOk state call) :
    ((sessionStep memoryProvider state call).1 = (sessionStep parquetProvider state' call).1 ↔
        ListOk state call) ∧
      SameSession root (sessionStep memoryProvider state call).2
        (sessionStep parquetProvider state' call).2 := by
  cases call with
  | child view nspace =>
    refine h.onView view (fun _ => trivial) fun cs hcs hview => ?_
    have hempty : nspace = some "" → cs = [] := by
      rintro rfl
      have hnspace := hchild rfl _ hview
      exact (nspace_eq_empty_iff fun part hpart => (hcs part hpart).isName).mp hnspace
    have hnames : ∀ path names, nspace = some path → validateLogicalPath path = .ok names →
        ∀ name ∈ names, ¬ endsWith ".parquet" name := by
      rintro path names rfl
      exact hparquet names
    have hlength := h.views.length_eq
    dsimp only [memoryProvider, parquetProvider]
    rcases child_same root hcs hnames hempty with
      ⟨error, hmemory, hfile⟩ | ⟨names, hok, hmemory, hfile⟩
    · rw [hmemory, hfile]
      exact ⟨iff_of_true rfl trivial, h⟩
    · rw [hmemory, hfile]
      dsimp only
      rw [hlength]
      exact ⟨iff_of_true rfl trivial, h.store,
        List.rel_append h.views (.cons (.mk (hcs.append hok)) .nil), h.handles⟩
  | readDataframe view name =>
    exact h.reads view .dataframe fun cs hcs => readDataframe_same h.store hcs name
  | readOptionalDataframe view name =>
    exact h.reads view .optionalDataframe fun cs hcs => readOptional_same h.store hcs name
  | writeDataframe view name dataframe =>
    refine h.onView view (fun _ => trivial) fun cs hcs _ => ?_
    obtain ⟨hanswer, hstore⟩ := writeDataframe_same hlossless h.store hcs name dataframe
    refine ⟨iff_of_true ?_ trivial, hstore, h.views, h.handles⟩
    exact congrArg (fun answer => observe answer fun _ => Value.unit) hanswer
  | has view name =>
    exact h.reads view .bool fun cs hcs => has_same h.store hcs name
  | list view =>
    refine h.onView view (fun hnone parent hparent => ?_) fun cs hcs hview => ⟨?_, h⟩
    · rw [hnone] at hparent
      cases hparent
    · obtain ⟨names, names', hmemory, hfile, hlists⟩ := list_eq_iff h.store hcs
      rw [← not_tableBelow_iff h.store hcs] at hlists
      have hok : ListOk state (.list view) ↔ ¬ TableBelow ⟨"/".intercalate cs⟩ state.store := by
        constructor
        · exact fun hok => hok _ hview
        · intro hnot parent hparent
          rw [hview] at hparent
          obtain rfl := Option.some.inj hparent
          exact hnot
      rw [hok, ← hlists]
      dsimp only [memoryProvider, parquetProvider]
      rw [hmemory, hfile]
      simp [observe, Except.map, Except.mapError]
  | openTable view name truncate =>
    refine h.onView view (fun _ => trivial) fun cs hcs _ => ?_
    have hlength := h.handles.length_eq
    dsimp only [memoryProvider, parquetProvider]
    rcases openTable_same h.store hcs name truncate with
      ⟨error, hmemory, hfile⟩ | ⟨table, table', hmemory, hfile, htable⟩
    · rw [hmemory, hfile]
      exact ⟨iff_of_true rfl trivial, h⟩
    · rw [hmemory, hfile]
      dsimp only
      rw [hlength]
      exact ⟨iff_of_true rfl trivial, h.store, h.views,
        List.rel_append h.handles (.cons htable .nil)⟩
  | write handle dataframe =>
    refine h.onHandle handle fun table table' htable => ?_
    obtain ⟨hcs, hname, staged⟩ := htable
    obtain ⟨hanswer, hstaged⟩ := staged_write_same staged dataframe _ _
    refine ⟨hanswer, h.setHandle handle ?_⟩
    dsimp only [memoryProvider, parquetProvider]
    rw [hstaged]
    exact .mk hcs hname _
  | length handle =>
    refine h.onHandle handle fun table table' htable => ?_
    obtain ⟨hcs, hname, staged⟩ := htable
    exact ⟨rfl, h⟩
  | columnNames handle =>
    refine h.onHandle handle fun table table' htable => ?_
    obtain ⟨hcs, hname, staged⟩ := htable
    exact ⟨rfl, h⟩
  | rows handle count =>
    refine h.onHandle handle fun table table' htable => ?_
    obtain ⟨hcs, hname, staged⟩ := htable
    exact ⟨rfl, h.setHandle handle (.mk hcs hname _)⟩
  | hasRow handle rowId =>
    refine h.onHandle handle fun table table' htable => ?_
    obtain ⟨hcs, hname, staged⟩ := htable
    exact ⟨rfl, h⟩
  | close handle =>
    refine h.onHandle handle fun table table' htable => ?_
    obtain ⟨hanswer, htable', hstore⟩ := close_same hlossless h.store htable
    have hnext := h.setHandle handle htable'
    exact ⟨hanswer, hstore, hnext.views, hnext.handles⟩
  | abort handle =>
    refine h.onHandle handle fun table table' htable => ?_
    obtain ⟨hcs, hname, staged⟩ := htable
    exact ⟨rfl, h.setHandle handle (.mk hcs hname _)⟩

/-- The sessions start with the same tables: none. -/
theorem SameSession.start (htree : fs.Tree) (hroot : fs.isDirectory root)
    (hempty : fs.below root = []) :
    SameSession root (memorySession δ).init (parquetSession δ root fs).init where
  store := .empty htree hroot hempty
  views := .cons (.mk fun _ hpart => absurd hpart List.not_mem_nil) .nil
  handles := .nil

/-- Sessions that are the same are told the same exactly when what they list has no tables below. -/
theorem SameSession.replies_eq_iff (hlossless : Lossless δ) {state : MemorySession δ}
    {state' : ParquetSession δ} (h : SameSession root state state') (calls : List (Call δ))
    (hparquet : ∀ call ∈ calls, call.NoParquetName)
    (hchild : (memorySession δ).Along ChildOk state calls) :
    (memorySession δ).repliesFrom state calls = (parquetSession δ root fs).repliesFrom state' calls ↔
      (memorySession δ).Along ListOk state calls :=
  Machine.replies_eq_iff_along _ _ Call.NoParquetName
    (fun _ _ call hparquet h hchild => h.step hlossless call hparquet hchild) h calls hparquet hchild

/-- **A session is told the same by both providers exactly when each view that it lists has no
tables in namespaces below**, as long as it takes the empty namespace as a child of none but
itself. -/
theorem memory_replies_eq_iff (hlossless : Lossless δ) (htree : fs.Tree) (hroot : fs.isDirectory root)
    (hempty : fs.below root = []) (calls : List (Call δ))
    (hparquet : ∀ call ∈ calls, call.NoParquetName)
    (hchild : (memorySession δ).Along ChildOk (memorySession δ).init calls) :
    (memorySession δ).replies calls = (parquetSession δ root fs).replies calls ↔
      (memorySession δ).Along ListOk (memorySession δ).init calls :=
  (SameSession.start htree hroot hempty).replies_eq_iff hlossless calls hparquet hchild

/-! ### A session -/

/-- Data frames that are empty or have a column of identifiers with some rows. -/
structure SampleFrame where
  rows : Option ℕ
deriving DecidableEq

instance : DataFrame SampleFrame Empty where
  empty := ⟨none⟩
  height frame := frame.rows.getD 0
  width frame := if frame.rows.isSome then 1 else 0
  columnNames frame := if frame.rows.isSome then ["id"] else []
  getRow frame index :=
    if index < frame.rows.getD 0 then .ok [.string "x"] else .error "index out of bounds"
  select frame _ := .ok frame
  vstack frame other := .ok ⟨some (frame.rows.getD 0 + other.rows.getD 0)⟩
  finishRead bytes := .ok ⟨if bytes.toList = [] then none else some (bytes.toList.length - 1)⟩
  finishWrite frame :=
    .ok (String.ofList (match frame.rows with
      | none => []
      | some rows => List.replicate (rows + 1) 'x'))

theorem sampleFrame_lossless : Lossless SampleFrame := by
  intro frame
  refine ⟨_, rfl, ?_⟩
  obtain ⟨rows⟩ := frame
  cases rows with
  | none => rfl
  | some rows => simp [finishRead, List.replicate_succ]

/-- A table is written in a namespace; then the views are listed. -/
def sampleCalls (view : ℕ) : List (Call SampleFrame) :=
  [.child 0 (some "a"), .writeDataframe 1 "t" ⟨some 1⟩, .list view]

theorem sampleCalls_noParquetName (view : ℕ) :
    ∀ call ∈ sampleCalls view, call.NoParquetName := by
  have hvalid : validateLogicalPath "a" = .ok ["a"] := by decide
  intro call hcall
  simp only [sampleCalls, List.mem_cons, List.not_mem_nil, or_false] at hcall
  rcases hcall with rfl | rfl | rfl
  · intro names hnames name hname
    rw [hvalid] at hnames
    obtain rfl := Except.ok.inj hnames
    rw [List.mem_singleton.mp hname]
    decide
  · trivial
  · trivial

theorem sampleCalls_childOk (view : ℕ) :
    (memorySession SampleFrame).Along ChildOk (memorySession SampleFrame).init (sampleCalls view) :=
  ⟨fun hempty => absurd hempty (by decide), trivial, trivial, trivial⟩

theorem sampleFiles_tree : FileSystem.Tree ∅ :=
  ⟨fun _ _ hlookup => absurd (Finmap.lookup_empty _) hlookup⟩

theorem sampleFiles_below : FileSystem.below ∅ [] = [] := by
  simp [FileSystem.below]

/-- The namespace lists its table in both. -/
theorem memory_replies_eq_iff_sample :
    (memorySession SampleFrame).replies (sampleCalls 1) =
      (parquetSession SampleFrame [] ∅).replies (sampleCalls 1) := by
  have hstart : SameSession [] (memorySession SampleFrame).init
      (parquetSession SampleFrame [] ∅).init :=
    SameSession.start sampleFiles_tree rfl sampleFiles_below
  have hchild := (hstart.step sampleFrame_lossless (.child 0 (some "a"))
    (sampleCalls_noParquetName 1 _ (by simp [sampleCalls])) (sampleCalls_childOk 1).1).2
  have hwritten := (hchild.step sampleFrame_lossless (.writeDataframe 1 "t" ⟨some 1⟩) trivial
    trivial).2
  refine (memory_replies_eq_iff sampleFrame_lossless sampleFiles_tree rfl sampleFiles_below
    (sampleCalls 1) (sampleCalls_noParquetName 1) (sampleCalls_childOk 1)).mpr
      ⟨trivial, trivial, ?_, trivial⟩
  rintro parent hparent
  have hnames : NamesOk ["a"] := fun part hpart => by
    rw [List.mem_singleton.mp hpart]
    exact ⟨by decide, by decide⟩
  obtain rfl : parent = ⟨"/".intercalate ["a"]⟩ := (Option.some.inj hparent).symm
  refine (not_tableBelow_iff hwritten.store hnames).mpr fun mid name hmid hname hkey => ?_
  -- the only key of the store
  have hkey' : tableKey (["a"] ++ mid) name = tableKey ["a"] "t" :=
    (Finmap.mem_insert.mp hkey).resolve_right Finmap.notMem_empty
  have hlists := intercalate_injective (isName_of_tableKey (hnames.append hmid) hname)
    (isName_of_tableKey hnames ⟨by decide, by decide, by simp [isTableNameChar]⟩) hkey'
  have hlength := congrArg List.length hlists
  simpa using hlength

/-- The root lists the table of the namespace in memory, and not among files. -/
theorem memory_replies_ne_parquet_replies :
    Lossless SampleFrame ∧ (∀ call ∈ sampleCalls 0, call.NoParquetName) ∧
      (memorySession SampleFrame).replies (sampleCalls 0) ≠
        (parquetSession SampleFrame [] ∅).replies (sampleCalls 0) := by
  have hstart : SameSession [] (memorySession SampleFrame).init
      (parquetSession SampleFrame [] ∅).init :=
    SameSession.start sampleFiles_tree rfl sampleFiles_below
  refine ⟨sampleFrame_lossless, sampleCalls_noParquetName 0, fun heq => ?_⟩
  have hok := (hstart.replies_eq_iff sampleFrame_lossless (sampleCalls 0)
    (sampleCalls_noParquetName 0) (sampleCalls_childOk 0)).mp heq
  exact hok.2.2.1 _ rfl ⟨"a", ⟨"a"⟩, "t", by decide, by decide, by decide⟩

end GraphLoom.Storage
