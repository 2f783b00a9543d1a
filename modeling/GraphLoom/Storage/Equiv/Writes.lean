import GraphLoom.Foundation.Fallible
import GraphLoom.Storage.Parquet

/-!
## Writes that fail

A handle takes its staged rows out before it appends to them, so a write that fails loses what the
writes before it have staged.  Failing writes change nothing exactly when there are none: when the
rows of each write can be stacked on those that are staged (`failedWrites_harmless_iff`).
-/

namespace GraphLoom.Storage

open DataFrame Foundation TableProvider

/-! ### Sequences of writes -/

namespace TableProvider

variable {σ π τ δ ν : Type} (provider : TableProvider σ π τ δ ν)

/-- The handle after the writes, which may have failed. -/
def writeAll (table : τ) (frames : List δ) : τ :=
  frames.foldl (fun table frame => (provider.write table frame).2) table

/-- The writes that do not fail. -/
def accepted : τ → List δ → List δ
  | _, [] => []
  | table, frame :: frames =>
    match provider.write table frame with
    | (.ok (), table) => frame :: accepted table frames
    | (.error _, table) => accepted table frames

/-- Two handles show the same rows, and closing or aborting them has the same outcome. -/
structure SameHandle (store : σ) (table table' : τ) : Prop where
  length : provider.length table = provider.length table'
  columnNames : provider.columnNames table = provider.columnNames table'
  rows : ∀ count, (provider.rows count table).1 = (provider.rows count table').1
  hasRow : ∀ rowId, provider.hasRow table rowId = provider.hasRow table' rowId
  closed : (provider.close table store).1 = (provider.close table' store).1
  stored : (provider.close table store).2.2 = (provider.close table' store).2.2
  aborted : provider.length (provider.abort table) = provider.length (provider.abort table')

/-- After each write, the handle is as if the writes that failed had been left out. -/
def FailuresHarmless (table : τ) (frames : List δ) : Prop :=
  ∀ count store, provider.SameHandle store (provider.writeAll table (frames.take count))
    (provider.writeAll table (provider.accepted table (frames.take count)))

theorem SameHandle.refl (store : σ) (table : τ) : provider.SameHandle store table table where
  length := rfl
  columnNames := rfl
  rows _ := rfl
  hasRow _ := rfl
  closed := rfl
  stored := rfl
  aborted := rfl

variable {provider} {table table' : τ} {frame : δ}

theorem accepted_ok (h : provider.write table frame = (.ok (), table')) (frames : List δ) :
    provider.accepted table (frame :: frames) = frame :: provider.accepted table' frames := by
  simp only [accepted, h]

theorem accepted_error {error : StorageError} (h : provider.write table frame = (.error error, table'))
    (frames : List δ) :
    provider.accepted table (frame :: frames) = provider.accepted table' frames := by
  simp only [accepted, h]

theorem writeAll_cons {result : Except StorageError Unit}
    (h : provider.write table frame = (result, table')) (frames : List δ) :
    provider.writeAll table (frame :: frames) = provider.writeAll table' frames := by
  simp only [writeAll, List.foldl_cons, h]

end TableProvider

variable {δ ν : Type} [DataFrame δ ν]

/-! ### What can be appended -/

/-- The frame can be appended to what is staged: one of them has no rows, or the frame has the
columns of the staged one, and its rows can be stacked when the columns are put in the same
order. -/
def Stackable (pending frame : δ) : Prop :=
  height pending = 0 ∨ height frame = 0 ∨
    columnNameSet pending = columnNameSet frame ∧
      ∃ selected stacked, select frame (columnNames pending) = .ok selected ∧
        vstack pending selected = .ok stacked

/-- Each frame can be appended to what the frames before it have staged. -/
def StackableAll : δ → List δ → Prop
  | _, [] => True
  | pending, frame :: frames =>
    Stackable pending frame ∧
      ∀ next, appendDataframe pending frame = .ok next → StackableAll next frames

theorem appendDataframe_ok_iff {pending frame : δ} :
    (∃ next, appendDataframe pending frame = .ok next) ↔ Stackable pending frame := by
  unfold appendDataframe Stackable
  by_cases hpending : height pending = 0
  · simp [hpending]
  by_cases hframe : height frame = 0
  · simp [hpending, hframe]
  by_cases hnames : columnNameSet pending = columnNameSet frame
  · rw [if_neg hpending, if_neg hframe, if_neg (not_not.mpr hnames)]
    simp only [hpending, hframe, hnames, false_or, true_and]
    cases hselect : select frame (columnNames pending) with
    | error reason => simp [bind, Except.bind, Except.mapError]
    | ok selected =>
      cases hstack : vstack pending selected with
      | error reason => simp [bind, Except.bind, Except.mapError, hstack]
      | ok stacked => simp [bind, Except.bind, Except.mapError, hstack]
  · simp [hpending, hframe, hnames]

/-- What fails to be appended loses rows that are staged. -/
theorem height_pos_of_not_stackable {pending frame : δ} (h : ¬ Stackable pending frame) :
    0 < height pending := by
  have hne : height pending ≠ 0 := fun hzero => h (.inl hzero)
  omega

/-! ### Handles that stage rows -/

/-- The handles of the provider stage rows. -/
structure Stages {σ π τ : Type} (provider : TableProvider σ π τ δ ν) (staged : τ → StagedTable δ) :
    Prop where
  opened : ∀ {view tableName truncate store table},
    provider.openTable view tableName truncate store = .ok table →
      ∃ existing, staged table = .opened existing truncate
  write : ∀ table frame, ∃ name,
    (provider.write table frame).1 = ((staged table).write name frame).1 ∧
      staged (provider.write table frame).2 = ((staged table).write name frame).2
  length : ∀ table, provider.length table = (staged table).length
  columnNames : ∀ table, provider.columnNames table = (staged table).columnNames
  rows : ∀ count table, (provider.rows count table).1 = ((staged table).rows count).1
  hasRow : ∀ table rowId, provider.hasRow table rowId = (staged table).has rowId

theorem memory_stages : Stages (memoryProvider (δ := δ)) MemoryTable.staged where
  opened hopen := by
    obtain ⟨key, -, htable⟩ := bind_eq_ok.mp hopen
    obtain rfl := Except.ok.inj htable
    exact ⟨_, rfl⟩
  write table frame := ⟨table.key, rfl, rfl⟩
  length _ := rfl
  columnNames _ := rfl
  rows _ _ := rfl
  hasRow _ _ := rfl

theorem parquet_stages : Stages (parquetProvider (δ := δ)) ParquetTable.staged where
  opened {_ _ truncate _ _} hopen := by
    obtain ⟨object, -, hopen⟩ := bind_eq_ok.mp hopen
    cases truncate with
    | true =>
      obtain rfl := Except.ok.inj hopen
      exact ⟨none, rfl⟩
    | false =>
      obtain ⟨existing, -, htable⟩ := bind_eq_ok.mp hopen
      obtain rfl := Except.ok.inj htable
      exact ⟨existing, rfl⟩
  write table frame := ⟨table.object, rfl, rfl⟩
  length _ := rfl
  columnNames _ := rfl
  rows _ _ := rfl
  hasRow _ _ := rfl

section

variable {σ π τ : Type} {provider : TableProvider σ π τ δ ν} {staged : τ → StagedTable δ} {table : τ}

/-- What one write does to an open handle. -/
theorem Stages.write_cases (h : Stages provider staged) (hopen : (staged table).closed = false)
    (frame : δ) :
    (∃ next table', provider.write table frame = (.ok (), table') ∧
      appendDataframe (staged table).pending frame = .ok next ∧
      staged table' = { staged table with pending := next }) ∨
    ∃ error table', provider.write table frame = (.error error, table') ∧
      ¬ Stackable (staged table).pending frame ∧
      staged table' = { staged table with pending := DataFrame.empty } := by
  obtain ⟨name, hresult, hstaged⟩ := h.write table frame
  have hcheck : (staged table).checkOpen name = .ok () := by simp [StagedTable.checkOpen, hopen]
  unfold StagedTable.write at hresult hstaged
  rw [hcheck] at hresult hstaged
  simp only [appendOptionalDataframe] at hresult hstaged
  cases happend : appendDataframe (staged table).pending frame with
  | ok next =>
    rw [happend] at hresult hstaged
    exact .inl ⟨next, _, Prod.ext hresult rfl, rfl, hstaged⟩
  | error error =>
    rw [happend] at hresult hstaged
    refine .inr ⟨error, _, Prod.ext hresult rfl, fun hstack => ?_, hstaged⟩
    obtain ⟨next, hnext⟩ := appendDataframe_ok_iff.mpr hstack
    rw [happend] at hnext
    cases hnext

/-- Writes that can be appended are all accepted. -/
theorem Stages.accepted_eq (h : Stages provider staged) (hopen : (staged table).closed = false)
    {frames : List δ} (hframes : StackableAll (staged table).pending frames) :
    provider.accepted table frames = frames := by
  induction frames generalizing table with
  | nil => rfl
  | cons frame frames ih =>
    obtain ⟨hframe, hnext⟩ := hframes
    rcases h.write_cases hopen frame with
      ⟨next, table', hwrite, happend, hstaged⟩ | ⟨error, table', -, hnot, -⟩
    · have hrest : provider.accepted table' frames = frames :=
        ih (by rw [hstaged]; exact hopen) (by rw [hstaged]; exact hnext next happend)
      rw [accepted_ok hwrite, hrest]
    · exact absurd hframe hnot

theorem StackableAll.take {pending : δ} {frames : List δ} (h : StackableAll pending frames)
    (count : ℕ) : StackableAll pending (frames.take count) := by
  induction frames generalizing pending count with
  | nil => simpa using h
  | cons frame frames ih =>
    cases count with
    | zero => trivial
    | succ count => exact ⟨h.1, fun next hnext => ih (h.2 next hnext) count⟩

/-- The first write that fails shows in the length of the handle. -/
theorem Stages.failuresHarmless_iff (hempty : height (DataFrame.empty : δ) = 0)
    (h : Stages provider staged) (store : σ) (hopen : (staged table).closed = false)
    (frames : List δ) :
    provider.FailuresHarmless table frames ↔ StackableAll (staged table).pending frames := by
  constructor
  · intro hharmless
    induction frames generalizing table with
    | nil => trivial
    | cons frame frames ih =>
      rcases h.write_cases hopen frame with
        ⟨next, table', hwrite, happend, hstaged⟩ | ⟨error, table', hwrite, hnot, hstaged⟩
      · refine ⟨appendDataframe_ok_iff.mp ⟨next, happend⟩, fun next' hnext' => ?_⟩
        obtain rfl := Except.ok.inj (happend.symm.trans hnext')
        have hrest : provider.FailuresHarmless table' frames := by
          intro count store
          have hsame := hharmless (count + 1) store
          rwa [List.take_succ_cons, accepted_ok hwrite,
            writeAll_cons hwrite, writeAll_cons hwrite] at hsame
        have hstack := ih (by rw [hstaged]; exact hopen) hrest
        rwa [hstaged] at hstack
      · -- nothing is staged then, and without the write the rows would still be there
        exfalso
        have hlength := (hharmless 1 store).length
        rw [List.take_succ_cons, accepted_error hwrite,
          writeAll_cons hwrite, List.take_zero] at hlength
        simp only [writeAll, accepted, List.foldl_nil, h.length, hstaged,
          StagedTable.length, hempty] at hlength
        have hpos := height_pos_of_not_stackable hnot
        omega
  · intro hstack count store
    rw [h.accepted_eq hopen (hstack.take count)]
    exact TableProvider.SameHandle.refl provider store _

end

/-- For both providers, failing writes on a handle change nothing exactly when each frame can be
appended to those before it. -/
theorem failedWrites_harmless_iff (hempty : height (DataFrame.empty : δ) = 0) :
    (∀ {view tableName truncate} {tables : MemoryTables δ} {table} (frames : List δ),
      memoryProvider.openTable view tableName truncate tables = .ok table →
        (memoryProvider.FailuresHarmless table frames ↔ StackableAll DataFrame.empty frames)) ∧
    (∀ {view tableName truncate} {fs : FileSystem} {table} (frames : List δ),
      parquetProvider.openTable view tableName truncate fs = .ok table →
        (parquetProvider.FailuresHarmless table frames ↔ StackableAll DataFrame.empty frames)) := by
  constructor
  · intro view tableName truncate tables table frames hopen
    obtain ⟨existing, hstaged⟩ := memory_stages.opened hopen
    have hclosed : table.staged.closed = false := by rw [hstaged]; rfl
    have hiff := memory_stages.failuresHarmless_iff hempty tables hclosed frames
    rwa [hstaged] at hiff
  · intro view tableName truncate fs table frames hopen
    obtain ⟨existing, hstaged⟩ := parquet_stages.opened hopen
    have hclosed : table.staged.closed = false := by rw [hstaged]; rfl
    have hiff := parquet_stages.failuresHarmless_iff hempty fs hclosed frames
    rwa [hstaged] at hiff

/-! ### Frames of a few columns -/

inductive SampleColumns where
  | idTitle
  | titleId
  | name
deriving DecidableEq, Repr

/-- All rows of a frame have the same values. -/
inductive SampleTable where
  | empty
  | rows (columns : SampleColumns) (count : ℕ)
deriving DecidableEq, Repr

namespace SampleTable

def names : SampleColumns → List String
  | .idTitle => ["id", "title"]
  | .titleId => ["title", "id"]
  | .name => ["name"]

def columnNames : SampleTable → List String
  | .empty => []
  | .rows columns _ => names columns

def count : SampleTable → ℕ
  | .empty => 0
  | .rows _ count => count

def value : String → AnyValue Empty
  | "id" => .stringOwned "1"
  | _ => .stringOwned "A"

def select (frame : SampleTable) (names : List String) : Except String SampleTable :=
  match frame with
  | .empty => if names = [] then .ok .empty else .error "column not found"
  | .rows columns count =>
    match [SampleColumns.idTitle, .titleId, .name].find? fun other => SampleTable.names other = names with
    | some other =>
      if (SampleTable.names columns).Perm names then .ok (.rows other count)
      else .error "column not found"
    | none => .error "column not found"

def vstack (frame other : SampleTable) : Except String SampleTable :=
  match frame, other with
  | .empty, .empty => .ok .empty
  | .rows columns count, .rows columns' count' =>
    if columns = columns' then .ok (.rows columns (count + count'))
    else .error "schema names differ"
  | _, _ => .error "widths differ"

def encode : SampleTable → String
  | .empty => ""
  | .rows columns count =>
    String.ofList ((match columns with
      | .idTitle => 'i'
      | .titleId => 't'
      | .name => 'n') :: List.replicate count 'x')

def decode (bytes : String) : SampleTable :=
  match bytes.toList with
  | [] => .empty
  | 'i' :: rest => .rows .idTitle rest.length
  | 't' :: rest => .rows .titleId rest.length
  | _ :: rest => .rows .name rest.length

end SampleTable

instance : DataFrame SampleTable Empty where
  empty := .empty
  height := SampleTable.count
  width frame := frame.columnNames.length
  columnNames := SampleTable.columnNames
  getRow frame index :=
    if index < frame.count then .ok (frame.columnNames.map SampleTable.value)
    else .error "index out of bounds"
  select := SampleTable.select
  vstack := SampleTable.vstack
  finishRead bytes := .ok (SampleTable.decode bytes)
  finishWrite frame := .ok frame.encode

/-- The second frame has another column, so the row of the first one is lost. -/
def mismatchedWrites : List SampleTable := [.rows .idTitle 1, .rows .name 1, .rows .idTitle 2]

/-- A handle that has staged a frame. -/
def sampleStaged (pending : SampleTable) : StagedTable SampleTable := ⟨none, true, pending, 0, false⟩

def memoryHandle (pending : SampleTable) : MemoryTable SampleTable := ⟨"t", sampleStaged pending⟩

def parquetHandle (pending : SampleTable) : ParquetTable SampleTable :=
  ⟨⟨[], []⟩, "t.parquet", sampleStaged pending⟩

/-- The second frame has the columns in another order. -/
theorem failedWrites_harmless_iff_sample :
    memoryProvider.FailuresHarmless (memoryHandle .empty)
      [.rows .idTitle 1, .rows .titleId 2] := by
  have hopen : memoryProvider.openTable ⟨""⟩ "t" true ∅ = .ok (memoryHandle .empty) := rfl
  refine ((failedWrites_harmless_iff rfl).1 _ hopen).mpr ⟨.inl rfl, ?_⟩
  intro next hnext
  have hfirst : appendDataframe DataFrame.empty (SampleTable.rows .idTitle 1) =
      .ok (.rows .idTitle 1) := rfl
  obtain rfl := Except.ok.inj (hfirst.symm.trans hnext)
  have hcolumns : columnNameSet (SampleTable.rows .idTitle 1) =
      columnNameSet (SampleTable.rows .titleId 2) := congrArg sortedNames (by decide)
  exact ⟨.inr (.inr ⟨hcolumns, _, _, rfl, rfl⟩), fun _ _ => trivial⟩

theorem write_mismatched (name : String) : ∃ error,
    (sampleStaged (.rows .idTitle 1)).write name (.rows .name 1) =
      (.error error, sampleStaged .empty) := by
  have hdiffer : columnNameSet (SampleTable.rows .idTitle 1) ≠
      columnNameSet (SampleTable.rows .name 1) := by
    intro heq
    have hmem : "name" ∈ columnNameSet (SampleTable.rows .name 1) := by
      rw [columnNameSet, mem_sortedNames]
      decide
    rw [← heq, columnNameSet, mem_sortedNames] at hmem
    exact absurd hmem (by decide)
  have happend : ∃ error,
      appendDataframe (SampleTable.rows .idTitle 1) (.rows .name 1) = .error error := by
    unfold appendDataframe
    rw [if_neg (by decide), if_neg (by decide), if_pos hdiffer]
    exact ⟨_, rfl⟩
  obtain ⟨error, happend⟩ := happend
  refine ⟨error, ?_⟩
  simp only [StagedTable.write, StagedTable.checkOpen, sampleStaged, appendOptionalDataframe, happend]
  rfl

/-- Two of three rows are stored. -/
theorem failedWrites_lose_rows :
    (memoryProvider.openTable ⟨""⟩ "t" true ∅ = .ok (memoryHandle .empty) ∧
      ¬ memoryProvider.FailuresHarmless (memoryHandle .empty) mismatchedWrites ∧
      memoryProvider.accepted (memoryHandle .empty) mismatchedWrites =
        [.rows .idTitle 1, .rows .idTitle 2] ∧
      memoryProvider.readDataframe ⟨""⟩ "t"
          (memoryProvider.close
            (memoryProvider.writeAll (memoryHandle .empty) mismatchedWrites) ∅).2.2 =
        .ok (SampleTable.rows .idTitle 2)) ∧
    (parquetProvider.openTable ⟨⟨[], []⟩⟩ "t" true ∅ = .ok (parquetHandle .empty) ∧
      ¬ parquetProvider.FailuresHarmless (parquetHandle .empty) mismatchedWrites ∧
      parquetProvider.accepted (parquetHandle .empty) mismatchedWrites =
        [.rows .idTitle 1, .rows .idTitle 2] ∧
      parquetProvider.readDataframe ⟨⟨[], []⟩⟩ "t"
          (parquetProvider.close
            (parquetProvider.writeAll (parquetHandle .empty) mismatchedWrites) ∅).2.2 =
        .ok (SampleTable.rows .idTitle 2)) := by
  obtain ⟨error, hmemory⟩ := write_mismatched "t"
  obtain ⟨error', hparquet⟩ := write_mismatched "t.parquet"
  have hfirst : memoryProvider.write (memoryHandle .empty) (SampleTable.rows .idTitle 1) =
      (.ok (), memoryHandle (.rows .idTitle 1)) := rfl
  have hsecond : memoryProvider.write (memoryHandle (.rows .idTitle 1)) (SampleTable.rows .name 1) =
      (.error error, memoryHandle .empty) := by
    simp only [memoryProvider, memoryHandle, hmemory]
  have hfirst' : parquetProvider.write (parquetHandle .empty) (SampleTable.rows .idTitle 1) =
      (.ok (), parquetHandle (.rows .idTitle 1)) := rfl
  have hsecond' : parquetProvider.write (parquetHandle (.rows .idTitle 1))
      (SampleTable.rows .name 1) = (.error error', parquetHandle .empty) := by
    simp only [parquetProvider, parquetHandle, hparquet]
  refine ⟨⟨rfl, fun h => ?_, ?_, ?_⟩, ⟨rfl, fun h => ?_, ?_, ?_⟩⟩
  · have hlength := (h 2 ∅).length
    simp only [mismatchedWrites, List.take_succ_cons, List.take_zero,
      TableProvider.accepted_ok hfirst, TableProvider.accepted_error hsecond,
      TableProvider.writeAll_cons hfirst, TableProvider.writeAll_cons hsecond] at hlength
    exact absurd hlength (by decide)
  · unfold mismatchedWrites
    rw [TableProvider.accepted_ok hfirst, TableProvider.accepted_error hsecond]
    rfl
  · unfold mismatchedWrites
    rw [TableProvider.writeAll_cons hfirst, TableProvider.writeAll_cons hsecond]
    rfl
  · have hlength := (h 2 ∅).length
    simp only [mismatchedWrites, List.take_succ_cons, List.take_zero,
      TableProvider.accepted_ok hfirst', TableProvider.accepted_error hsecond',
      TableProvider.writeAll_cons hfirst', TableProvider.writeAll_cons hsecond'] at hlength
    exact absurd hlength (by decide)
  · unfold mismatchedWrites
    rw [TableProvider.accepted_ok hfirst', TableProvider.accepted_error hsecond']
    rfl
  · unfold mismatchedWrites
    rw [TableProvider.writeAll_cons hfirst', TableProvider.writeAll_cons hsecond']
    rfl

end GraphLoom.Storage
