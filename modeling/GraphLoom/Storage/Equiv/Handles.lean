import GraphLoom.Storage.Equiv.Store
import GraphLoom.Storage.Equiv.Writes

/-!
## What a handle shows and commits

A handle shows the stored rows and those that are staged.  They are shown and stored as they have
been written unless a written row is in another column order than the stored table, the stored table
has no column of identifiers and no rows, or a table is truncated and no frame with a column is
written (`handle_faithful_iff`).
-/

namespace GraphLoom.Storage

open DataFrame Foundation

variable {δ ν κ : Type} [DataFrame δ ν]

/-! ### The columns and the rows of a frame -/

/-- A row, by the names of its columns. -/
abbrev Record (ν : Type) := String → Option (AnyValue ν)

/-- What the operations on data frames do to the columns and the rows. -/
structure FrameLaws (columns : δ → List (String × κ)) (records : δ → List (Record ν)) : Prop where
  columnNames : ∀ frame, DataFrame.columnNames frame = (columns frame).map Prod.fst
  width : ∀ frame, DataFrame.width frame = (columns frame).length
  height : ∀ frame, DataFrame.height frame = (records frame).length
  defined : ∀ frame, ∀ record ∈ records frame, ∀ name,
    (record name).isSome ↔ name ∈ DataFrame.columnNames frame
  getRow : ∀ frame index record, (records frame)[index]? = some record →
    ∃ row, DataFrame.getRow frame index = .ok row ∧
      row.map some = (DataFrame.columnNames frame).map record
  select : ∀ frame order, order.Perm (columns frame) →
    ∃ selected, DataFrame.select frame (order.map Prod.fst) = .ok selected ∧
      columns selected = order ∧ records selected = records frame
  vstack : ∀ frame other, columns frame = columns other →
    ∃ stacked, DataFrame.vstack frame other = .ok stacked ∧
      columns stacked = columns frame ∧ records stacked = records frame ++ records other
  empty : columns DataFrame.empty = [] ∧ records DataFrame.empty = []

variable {columns : δ → List (String × κ)} {records : δ → List (Record ν)}

/-- The row has the values of the record in the order of the names. -/
def InOrder (names : List String) (record : Record ν) (row : List (AnyValue ν)) : Prop :=
  row.map some = names.map fun name => (record name).map AnyValue.intoStatic

def Record.hasId (rowId : String) (record : Record ν) : Bool :=
  match record "id" with
  | some (.string value) => value = rowId
  | some (.stringOwned value) => value = rowId
  | _ => false

namespace FrameLaws

theorem height_eq_zero_iff (h : FrameLaws columns records) (frame : δ) :
    DataFrame.height frame = 0 ↔ records frame = [] := by
  rw [h.height, List.length_eq_zero_iff]

/-- Frames with the same columns can be appended. -/
theorem append (h : FrameLaws columns records) {existing pending : δ}
    (hcolumns : (columns existing).Perm (columns pending)) :
    ∃ dataframe, appendDataframe existing pending = .ok dataframe ∧
      records dataframe = records existing ++ records pending ∧
      columns dataframe = if DataFrame.height existing = 0 then columns pending
        else columns existing := by
  unfold appendDataframe
  by_cases hexisting : DataFrame.height existing = 0
  · refine ⟨pending, by rw [if_pos hexisting], ?_, by rw [if_pos hexisting]⟩
    rw [(h.height_eq_zero_iff existing).mp hexisting, List.nil_append]
  rw [if_neg hexisting, if_neg hexisting]
  by_cases hpending : DataFrame.height pending = 0
  · refine ⟨existing, by rw [if_pos hpending], ?_, rfl⟩
    rw [(h.height_eq_zero_iff pending).mp hpending, List.append_nil]
  have hnames : columnNameSet existing = columnNameSet pending := by
    unfold columnNameSet
    rw [h.columnNames, h.columnNames, List.toFinset_eq_of_perm _ _ (hcolumns.map Prod.fst)]
  rw [if_neg hpending, if_neg (not_not.mpr hnames)]
  obtain ⟨selected, hselect, horder, hselected⟩ := h.select pending (columns existing) hcolumns
  obtain ⟨stacked, hstack, hcs, hrecords⟩ := h.vstack existing selected horder.symm
  refine ⟨stacked, ?_, by rw [hrecords, hselected], hcs⟩
  simp only [h.columnNames, hselect, hstack, bind, Except.bind, Except.mapError]

/-! ### Reading rows -/

variable {frame : δ} (h : FrameLaws columns records)
include h

theorem rowFromDataframe {index : ℕ} {record : Record ν}
    (hrecord : (records frame)[index]? = some record) :
    ∃ row, Storage.rowFromDataframe frame index = .ok row ∧
      InOrder (DataFrame.columnNames frame) record row := by
  obtain ⟨row, hrow, hvalues⟩ := h.getRow frame index record hrecord
  refine ⟨row.map AnyValue.intoStatic, ?_, ?_⟩
  · simp [Storage.rowFromDataframe, hrow, Except.mapError, Except.map]
  · have hstatic := congrArg (List.map (Option.map AnyValue.intoStatic)) hvalues
    simpa [InOrder, Function.comp_def] using hstatic

/-- The rows of a frame, as they are read. -/
theorem forall₂_rows (frame : δ) : List.Forall₂ (fun record result => ∃ row, result = .ok row ∧
        InOrder (DataFrame.columnNames frame) record row)
      (records frame)
      ((List.range (DataFrame.height frame)).map (Storage.rowFromDataframe frame)) := by
  rw [List.forall₂_iff_get]
  refine ⟨by rw [List.length_map, List.length_range, h.height], fun index hindex _ => ?_⟩
  simp only [List.get_eq_getElem, List.getElem_map, List.getElem_range]
  exact h.rowFromDataframe (List.getElem?_eq_getElem hindex)

/-- The loop of `has` over the rows from an index on. -/
theorem anyRowMatches {idIndex : ℕ}
    (hid : idColumnIndex frame = some idIndex) (rowId : String) {rest before : List (Record ν)}
    (hrecords : records frame = before ++ rest) :
    Storage.anyRowMatches frame idIndex rowId (List.range' before.length rest.length) =
      .ok (rest.any (Record.hasId rowId)) := by
  induction rest generalizing before with
  | nil => rfl
  | cons record rest ih =>
    have hrecord : (records frame)[before.length]? = some record := by
      rw [hrecords]
      simp
    obtain ⟨row, hrow, hvalues⟩ := h.rowFromDataframe hrecord
    have hmatches : rowMatchesId row idIndex rowId = record.hasId rowId := by
      obtain ⟨hindex, hname, -⟩ := List.findIdx?_eq_some_iff_getElem.mp hid
      have hvalue := congrArg (fun row => row[idIndex]?) hvalues
      simp only [List.getElem?_map, List.getElem?_eq_getElem hindex, Option.map_some,
        of_decide_eq_true hname] at hvalue
      unfold rowMatchesId Record.hasId
      cases hcell : row[idIndex]? with
      | none =>
        rw [hcell] at hvalue
        cases hvalue
      | some cell =>
        rw [hcell, Option.map_some, Option.some.injEq] at hvalue
        cases hentry : record "id" with
        | none =>
          rw [hentry] at hvalue
          cases hvalue
        | some entry =>
          rw [hentry, Option.map_some, Option.some.injEq] at hvalue
          subst hvalue
          cases entry <;> rfl
    have hrest := @ih (before ++ [record]) (by rw [hrecords, List.append_assoc]; rfl)
    rw [List.length_append, List.length_singleton] at hrest
    rw [List.length_cons, List.range'_succ]
    simp only [Storage.anyRowMatches, hrow, bind, Except.bind, hmatches, List.any_cons]
    cases record.hasId rowId with
    | true => rfl
    | false => exact hrest

/-- A frame without the column has no such row. -/
theorem any_hasId_of_none (hid : idColumnIndex frame = none) (rowId : String) :
    (records frame).any (Record.hasId rowId) = false := by
  rw [List.any_eq_false]
  intro record hrecord
  have hnone : record "id" = none := by
    rw [← Option.not_isSome_iff_eq_none, h.defined frame record hrecord]
    intro hmem
    exact of_decide_eq_false (List.findIdx?_eq_none_iff.mp hid "id" hmem) rfl
  simp [Record.hasId, hnone]

/-- The rows of a frame are searched one after another. -/
theorem anyRowMatches_range {idIndex : ℕ}
    (hid : idColumnIndex frame = some idIndex) (rowId : String) :
    Storage.anyRowMatches frame idIndex rowId (List.range (DataFrame.height frame)) =
      .ok ((records frame).any (Record.hasId rowId)) := by
  have hloop := h.anyRowMatches hid rowId (List.nil_append (records frame)).symm
  rwa [List.length_nil, ← List.range_eq_range', ← h.height] at hloop

end FrameLaws

/-! ### The rows of a handle -/

section

variable {table : StagedTable δ}

/-- The rows of a handle, as they are read. -/
def StagedTable.shown (table : StagedTable δ) : List (Except StorageError (List (AnyValue ν))) :=
  (table.existing.elim [] fun existing =>
      (List.range (height existing)).map (rowFromDataframe existing)) ++
    (List.range (height table.pending)).map (rowFromDataframe table.pending)

/-- The next row is the one at the cursor. -/
theorem nextDataframeRow_eq (table : StagedTable δ) :
    nextDataframeRow table.existing table.pending table.readIndex =
      match table.shown[table.readIndex]? with
      | none => (.ok none, table.readIndex)
      | some (.ok row) => (.ok (some row), table.readIndex + 1)
      | some (.error error) => (.error error, table.readIndex) := by
  obtain ⟨existing, truncate, pending, index, closed⟩ := table
  have hpending : ∀ offset, ((List.range (height pending)).map (rowFromDataframe pending))[offset]? =
      if height pending ≤ offset then none else some (rowFromDataframe pending offset) := by
    intro offset
    by_cases hoffset : height pending ≤ offset
    · rw [if_pos hoffset, List.getElem?_eq_none (by simpa using hoffset)]
    · rw [if_neg hoffset, List.getElem?_map, List.getElem?_range (by omega), Option.map_some]
  unfold nextDataframeRow StagedTable.shown
  cases existing with
  | none =>
    simp only [Option.elim_none, List.nil_append, Option.map_none, Option.getD_none,
      Option.filter_none, Nat.sub_zero, hpending]
    by_cases hend : height pending ≤ index
    · simp [hend]
    · simp only [hend, if_false]
      cases rowFromDataframe pending index <;> rfl
  | some existing =>
    simp only [Option.elim_some, Option.map_some, Option.getD_some, Option.filter_some]
    by_cases hindex : index < height existing
    · rw [List.getElem?_append_left (by simpa using hindex)]
      simp only [hindex, decide_true, if_true, List.getElem?_map, List.getElem?_range hindex,
        Option.map_some]
      cases rowFromDataframe existing index <;> rfl
    · rw [List.getElem?_append_right (by simpa using hindex)]
      simp only [hindex, decide_false, List.length_map, List.length_range, hpending,
        Bool.false_eq_true, if_false]
      by_cases hend : height pending ≤ index - height existing
      · simp [hend]
      · simp only [hend, if_false]
        cases rowFromDataframe pending (index - height existing) <;> rfl

/-- A stream gives the rows from the cursor on. -/
theorem rows_eq (hok : ∀ result ∈ table.shown, ∃ row, result = .ok row) (count : ℕ) :
    (table.rows count).1 = (table.shown.drop table.readIndex).take count := by
  induction count generalizing table with
  | zero => rfl
  | succ count ih =>
    unfold StagedTable.rows
    rw [nextDataframeRow_eq]
    by_cases hindex : table.readIndex < table.shown.length
    · have hget := List.getElem?_eq_getElem hindex
      obtain ⟨row, hrow⟩ := hok _ (List.getElem_mem hindex)
      rw [hrow] at hget
      rw [List.drop_eq_getElem_cons hindex, List.take_succ_cons, hrow, hget]
      have hrest := @ih { table with readIndex := table.readIndex + 1 } hok
      exact congrArg (Except.ok row :: ·) hrest
    · rw [List.getElem?_eq_none (by omega), List.drop_eq_nil_of_le (by omega), List.take_nil]

end

/-! ### What has been staged -/

/-- The first frame that has rows. -/
def firstWithRows (frames : List δ) : Option δ := frames.find? fun frame => 0 < height frame

/-- The frame that a sequence of writes has staged. -/
structure StagedAs (columns : δ → List (String × κ)) (records : δ → List (Record ν)) (pending : δ)
    (frames : List δ) : Prop where
  records : records pending = frames.flatMap records
  columns : ∀ first, firstWithRows frames = some first → columns pending = columns first
  empty : firstWithRows frames = none → pending = frames.getLast?.getD DataFrame.empty

theorem StagedAs.nil (h : FrameLaws columns records) :
    StagedAs columns records (DataFrame.empty : δ) [] where
  records := h.empty.2
  columns first hfirst := by cases hfirst
  empty _ := rfl

/-- There are rows when a frame has rows. -/
theorem StagedAs.height_eq_zero_iff (h : FrameLaws columns records) {pending : δ} {frames : List δ}
    (hstaged : StagedAs columns records pending frames) :
    height pending = 0 ↔ firstWithRows frames = none := by
  rw [h.height_eq_zero_iff, hstaged.records, List.flatMap_eq_nil_iff, firstWithRows,
    List.find?_eq_none]
  refine forall₂_congr fun frame _ => ?_
  rw [← h.height_eq_zero_iff, decide_eq_true_eq]
  omega

/-- What is staged has the columns of the frames. -/
theorem StagedAs.perm {pending : δ} {frames : List δ}
    (hstaged : StagedAs columns records pending frames) {order : List (String × κ)}
    (hframes : ∀ frame ∈ frames, order.Perm (columns frame)) (hne : frames ≠ []) :
    order.Perm (columns pending) := by
  cases hfirst : firstWithRows frames with
  | some first =>
    rw [hstaged.columns first hfirst]
    exact hframes first (List.mem_of_find?_eq_some hfirst)
  | none =>
    rw [hstaged.empty hfirst, List.getLast?_eq_getLast_of_ne_nil hne]
    exact hframes _ (List.getLast_mem hne)

/-- One more frame with the same columns is staged. -/
theorem StagedAs.append (h : FrameLaws columns records) {pending frame : δ} {frames : List δ}
    (hstaged : StagedAs columns records pending frames)
    (hframes : ∀ other ∈ frames, (columns other).Perm (columns frame)) :
    ∃ next, appendDataframe pending frame = .ok next ∧
      StagedAs columns records next (frames ++ [frame]) := by
  have hfind : firstWithRows (frames ++ [frame]) =
      (firstWithRows frames).or (if 0 < height frame then some frame else none) := by
    unfold firstWithRows
    rw [List.find?_append]
    by_cases hheight : 0 < height frame <;> simp [hheight]
  by_cases hheight : height pending = 0
  · -- the frame replaces the one that has no rows
    have hnone := (hstaged.height_eq_zero_iff h).mp hheight
    refine ⟨frame, by rw [appendDataframe, if_pos hheight], ?_, ?_, ?_⟩
    · rw [List.flatMap_append, ← hstaged.records, (h.height_eq_zero_iff pending).mp hheight]
      simp
    · intro first hfirst
      rw [hfind, hnone, Option.none_or] at hfirst
      split at hfirst
      · rw [Option.some.inj hfirst]
      · cases hfirst
    · intro _
      simp
  · obtain ⟨first, hfirst⟩ : ∃ first, firstWithRows frames = some first :=
      Option.ne_none_iff_exists'.mp fun hnone => hheight ((hstaged.height_eq_zero_iff h).mpr hnone)
    have hmem : first ∈ frames := List.mem_of_find?_eq_some hfirst
    have hperm : (columns pending).Perm (columns frame) := by
      rw [hstaged.columns first hfirst]
      exact hframes first hmem
    obtain ⟨next, happend, hrecords, hcolumns⟩ := h.append hperm
    rw [if_neg hheight] at hcolumns
    refine ⟨next, happend, ?_, ?_, ?_⟩
    · rw [hrecords, hstaged.records, List.flatMap_append]
      simp
    · intro first' hfirst'
      rw [hfind, hfirst, Option.some_or] at hfirst'
      rw [hcolumns, ← Option.some.inj hfirst', hstaged.columns first hfirst]
    · intro hnone
      rw [hfind, hfirst, Option.some_or] at hnone
      cases hnone

section

variable {σ π τ : Type} {provider : TableProvider σ π τ δ ν} {staged : τ → StagedTable δ} {table : τ}

/-- Writes of frames with the same columns stage them one after another. -/
theorem Stages.writeAll_staged (h : Stages provider staged) (hlaws : FrameLaws columns records)
    {before : List δ} (hbefore : StagedAs columns records (staged table).pending before)
    (hopen : (staged table).closed = false) {frames : List δ}
    (hframes : (before ++ frames).Pairwise fun frame other => (columns frame).Perm (columns other)) :
    ∃ pending, staged (provider.writeAll table frames) = { staged table with pending } ∧
      StagedAs columns records pending (before ++ frames) := by
  induction frames generalizing table before with
  | nil => exact ⟨_, rfl, by rwa [List.append_nil]⟩
  | cons frame frames ih =>
    have hother : ∀ other ∈ before, (columns other).Perm (columns frame) := by
      intro other hother
      exact (List.pairwise_append.mp hframes).2.2 other hother frame (List.mem_cons_self ..)
    obtain ⟨next, happend, hnext⟩ := hbefore.append hlaws hother
    rcases h.write_cases hopen frame with
      ⟨next', table', hwrite, happend', hstaged⟩ | ⟨error, table', -, hnot, -⟩
    · obtain rfl := Except.ok.inj (happend.symm.trans happend')
      obtain ⟨pending, hpending, hresult⟩ := @ih table' (before ++ [frame])
        (by rw [hstaged]; exact hnext) (by rw [hstaged]; exact hopen)
        (by rwa [List.append_assoc, List.singleton_append])
      refine ⟨pending, ?_, by rwa [List.append_assoc, List.singleton_append] at hresult⟩
      rw [TableProvider.writeAll_cons hwrite, hpending, hstaged]
    · exact absurd (appendDataframe_ok_iff.mp ⟨next, happend⟩) hnot

end

/-! ### Faithful handles -/

/-- The frames have the same columns in any order, and so has a stored table with rows that they are
appended to. -/
structure SameColumns (columns : δ → List (String × κ)) (truncate : Bool) (stored : Option δ)
    (frames : List δ) : Prop where
  written : frames.Pairwise fun frame other => (columns frame).Perm (columns other)
  appended : truncate = false → ∀ existing, stored = some existing → 0 < height existing →
    ∀ frame ∈ frames, (columns existing).Perm (columns frame)

theorem SameColumns.perm {truncate : Bool} {stored : Option δ} {frames : List δ}
    (h : SameColumns columns truncate stored frames) {frame other : δ} (hframe : frame ∈ frames)
    (hother : other ∈ frames) : (columns frame).Perm (columns other) := by
  by_cases heq : frame = other
  · rw [heq]
  · have hsymm : Std.Symm fun frame other => (columns frame).Perm (columns other) :=
      ⟨fun _ _ hperm => hperm.symm⟩
    exact h.written.forall hframe hother heq

/-- The stored rows, unless they are to be replaced, and those of the frames. -/
def visibleRecords (records : δ → List (Record ν)) (truncate : Bool) (stored : Option δ)
    (frames : List δ) : List (Record ν) :=
  (if truncate then [] else stored.elim [] records) ++ frames.flatMap records

/-- The handle shows the rows and commits them, unless the storage fails. -/
structure Faithful {σ π τ : Type} (records : δ → List (Record ν)) (provider : TableProvider σ π τ δ ν)
    (storageFails : StorageError → Prop) (view : π) (tableName : String) (store : σ) (table : τ)
    (visible : List (Record ν)) : Prop where
  length : provider.length table = visible.length
  rows : ∀ count, List.Forall₂
    (fun record result => ∃ row, result = .ok row ∧ InOrder (provider.columnNames table) record row)
    (visible.take count) (provider.rows count table).1
  hasRow : ∀ rowId, provider.hasRow table rowId = .ok (visible.any (Record.hasId rowId))
  close :
    ((provider.close table store).1 = .ok () ∧
      ∃ stored, provider.readOptionalDataframe view tableName (provider.close table store).2.2 =
        .ok stored ∧ stored.elim [] records = visible) ∨
    ∃ error, storageFails error ∧ (provider.close table store).1 = .error error
  abort : ∃ error, (provider.close (provider.abort table) store).1 = .error error ∧
    (provider.close (provider.abort table) store).2.2 = store

/-- When the handle is faithful. -/
structure Undisturbed (records : δ → List (Record ν)) (truncate : Bool) (stored : Option δ)
    (frames : List δ) : Prop where
  replaced : truncate = true → stored.elim [] records = [] ∨
    ∃ frame ∈ frames, 0 < height frame ∨ 0 < width frame
  ordered : truncate = false → ∀ existing first, stored = some existing → 0 < width existing →
    firstWithRows frames = some first → ∀ record ∈ frames.flatMap records, ∀ row,
      InOrder (columnNames first) record row → InOrder (columnNames existing) record row
  identified : truncate = false → ∀ existing, stored = some existing → "id" ∉ columnNames existing →
    ∀ record ∈ frames.flatMap records, ∀ rowId, record.hasId rowId = false

/-- What a handle holds after the writes. -/
structure Holds (columns : δ → List (String × κ)) (records : δ → List (Record ν)) (truncate : Bool)
    (stored : Option δ) (frames : List δ) (table : StagedTable δ) : Prop where
  existing : table.existing = if truncate then none else stored
  truncate : table.truncate = truncate
  pending : StagedAs columns records table.pending frames
  readIndex : table.readIndex = 0

namespace Holds

variable {truncate : Bool} {stored : Option δ} {frames : List δ} {table : StagedTable δ}

theorem visible (h : Holds columns records truncate stored frames table) :
    visibleRecords records truncate stored frames =
      table.existing.elim [] records ++ records table.pending := by
  rw [visibleRecords, h.existing, h.pending.records]
  cases truncate <;> rfl

section

variable (hlaws : FrameLaws columns records)
  (h : Holds columns records truncate stored frames table)
include hlaws h

theorem length : table.length = (visibleRecords records truncate stored frames).length := by
  rw [h.visible, List.length_append, StagedTable.length, hlaws.height]
  cases table.existing with
  | none => rfl
  | some existing => simp [hlaws.height]

/-- Stored rows are in the order of the column names of the handle. -/
theorem columnNames_stored (hsame : SameColumns columns truncate stored frames) {existing : δ}
    (hexisting : table.existing = some existing) (hheight : 0 < height existing) :
    table.columnNames = columnNames existing := by
  unfold StagedTable.columnNames
  rw [hexisting]
  by_cases hwidth : 0 < width existing
  · simp [Option.filter_some, hwidth]
  -- without columns, neither the stored table nor what is staged has a name
  have hnone : columns existing = [] := by
    rw [← List.length_eq_zero_iff, ← hlaws.width]
    omega
  have hpending : columns table.pending = [] := by
    by_cases hframes : frames = []
    · have hempty := h.pending.empty (by rw [hframes]; rfl)
      rw [hempty, hframes]
      exact hlaws.empty.1
    · cases htruncate : truncate with
      | true =>
        rw [h.existing, htruncate] at hexisting
        cases hexisting
      | false =>
        rw [h.existing, htruncate] at hexisting
        have hperm := h.pending.perm (hsame.appended htruncate existing hexisting hheight) hframes
        rw [hnone] at hperm
        exact hperm.nil_eq.symm
  simp [Option.filter_some, hwidth, hlaws.columnNames, hnone, hpending]

/-- The rows are shown in the order of the column names exactly when those that are staged are. -/
theorem rows_iff (hsame : SameColumns columns truncate stored frames) : (∀ count, List.Forall₂
      (fun record result => ∃ row, result = .ok row ∧ InOrder table.columnNames record row)
      ((visibleRecords records truncate stored frames).take count) (table.rows count).1) ↔
    ∀ record ∈ frames.flatMap records, ∀ row, InOrder (columnNames table.pending) record row →
      InOrder table.columnNames record row := by
  have hpending := hlaws.forall₂_rows table.pending
  have hexisting : List.Forall₂
      (fun record result => ∃ row, result = .ok row ∧ InOrder table.columnNames record row)
      (table.existing.elim [] records)
      (table.existing.elim [] fun existing =>
        (List.range (height existing)).map (rowFromDataframe existing)) := by
    cases hexists : table.existing with
    | none => exact .nil
    | some existing =>
      by_cases hheight : height existing = 0
      · simp [hheight, (hlaws.height_eq_zero_iff existing).mp hheight]
      · rw [h.columnNames_stored hlaws hsame hexists (by omega)]
        exact hlaws.forall₂_rows existing
  have hok : ∀ result ∈ table.shown, ∃ row, result = .ok row := by
    intro result hresult
    rcases List.mem_append.mp hresult with hresult | hresult
    · obtain ⟨_, -, row, hrow, -⟩ := forall₂_exists_left hexisting hresult
      exact ⟨row, hrow⟩
    · obtain ⟨_, -, row, hrow, -⟩ := forall₂_exists_left hpending hresult
      exact ⟨row, hrow⟩
  rw [h.visible, ← h.pending.records]
  constructor
  · intro hrows record hrecord row hrow
    have hall := hrows
      ((table.existing.elim [] records ++ records table.pending).length + table.shown.length)
    rw [rows_eq hok, h.readIndex, List.drop_zero, List.take_of_length_le (by omega),
      List.take_of_length_le (by omega)] at hall
    have hstaged : List.Forall₂
        (fun record result => ∃ row, result = .ok row ∧ InOrder table.columnNames record row)
        (records table.pending)
        ((List.range (height table.pending)).map (rowFromDataframe table.pending)) := by
      have hdrop := List.forall₂_drop (table.existing.elim [] records).length hall
      rwa [List.drop_left, hexisting.length_eq, StagedTable.shown, List.drop_left] at hdrop
    obtain ⟨_, -, ⟨row', rfl, hrow'⟩, row'', heq, hrow''⟩ :=
      forall₂_exists_both hpending hstaged hrecord
    obtain rfl := Except.ok.inj heq
    have hsome : row.map some = row'.map some := hrow.trans hrow'.symm
    rwa [List.map_injective_iff.mpr (Option.some_injective _) hsome]
  · intro hrows count
    rw [rows_eq hok, h.readIndex, List.drop_zero]
    refine List.forall₂_take count (List.rel_append hexisting ?_)
    have hboth := (List.forall₂_and_left _ _).mpr ⟨fun record hrecord => hrecord, hpending⟩
    refine hboth.imp fun record result hresult => ?_
    obtain ⟨hrecord, row, hrow, hvalues⟩ := hresult
    exact ⟨row, hrow, hrows record hrecord row hvalues⟩

/-- The rows are searched for an identifier, those that are staged only when the stored table has a
column for it. -/
theorem hasRow_iff : (∀ rowId, table.has rowId =
      .ok ((visibleRecords records truncate stored frames).any (Record.hasId rowId))) ↔
    ∀ existing, table.existing = some existing → "id" ∉ columnNames existing →
      ∀ record ∈ frames.flatMap records, ∀ rowId, record.hasId rowId = false := by
  have hpending : ∀ rowId, table.hasPending rowId =
      .ok ((frames.flatMap records).any (Record.hasId rowId)) := by
    intro rowId
    rw [← h.pending.records]
    unfold StagedTable.hasPending
    cases hid : idColumnIndex table.pending with
    | none => rw [hlaws.any_hasId_of_none hid rowId]
    | some idIndex => exact hlaws.anyRowMatches_range hid rowId
  rw [h.visible]
  unfold StagedTable.has
  cases hexists : table.existing with
  | none =>
    simp only [Option.elim_none, List.nil_append, hpending, h.pending.records, implies_true, true_iff]
    intro existing heq
    cases heq
  | some existing =>
    have hmem : "id" ∈ columnNames existing ↔ idColumnIndex existing ≠ none := by
      rw [idColumnIndex, ne_eq, List.findIdx?_eq_none_iff]
      simp
    simp only [Option.elim_some, List.any_append, hpending, h.pending.records, Option.some.injEq,
      forall_eq', hmem, not_not]
    cases hid : idColumnIndex existing with
    | none =>
      simp only [hlaws.any_hasId_of_none hid, Bool.false_or, Except.ok.injEq, forall_const]
      constructor
      · intro hfound record hrecord rowId
        exact Bool.eq_false_iff.mpr (List.any_eq_false.mp (hfound rowId).symm record hrecord)
      · intro hfound rowId
        rw [eq_comm, List.any_eq_false]
        intro record hrecord
        rw [hfound record hrecord rowId]
        exact Bool.false_ne_true
    | some idIndex =>
      simp only [hlaws.anyRowMatches_range hid, reduceCtorEq, false_implies, iff_true]
      intro rowId
      cases (records existing).any (Record.hasId rowId) <;> simp

/-- Nothing is staged exactly when no frame has rows, and none has columns that are to replace the
table. -/
theorem nothingStaged_iff (hsame : SameColumns columns truncate stored frames) :
    table.nothingStaged = true ↔ firstWithRows frames = none ∧
      (truncate = true → ∀ frame ∈ frames, width frame = 0) := by
  unfold StagedTable.nothingStaged
  rw [Bool.and_eq_true, decide_eq_true_eq, h.pending.height_eq_zero_iff hlaws, h.truncate]
  refine and_congr_right fun hfirst => ?_
  have hempty := h.pending.empty hfirst
  cases truncate with
  | false => simp
  | true =>
    simp only [Bool.not_true, Bool.false_or, decide_eq_true_eq, true_implies]
    by_cases hframes : frames = []
    · simp [hempty, hframes, hlaws.width, hlaws.empty.1]
    · rw [List.getLast?_eq_getLast_of_ne_nil hframes] at hempty
      have hlast := List.getLast_mem hframes
      rw [hempty]
      constructor
      · intro hwidth frame hframe
        have hperm := hsame.perm hframe hlast
        rw [hlaws.width] at hwidth ⊢
        rw [hperm.length_eq]
        exact hwidth
      · intro hwidth
        exact hwidth _ hlast

/-- What is staged can be appended to the stored rows. -/
theorem append
    (hsame : SameColumns columns truncate stored frames) (hstaged : table.nothingStaged = false) :
    ∃ dataframe, appendOptionalDataframe table.existing table.pending = .ok dataframe ∧
      records dataframe = visibleRecords records truncate stored frames := by
  rw [h.visible]
  cases hexists : table.existing with
  | none => exact ⟨table.pending, rfl, rfl⟩
  | some existing =>
    by_cases hheight : height existing = 0
    · refine ⟨table.pending, by rw [appendOptionalDataframe, appendDataframe, if_pos hheight], ?_⟩
      rw [Option.elim_some, (hlaws.height_eq_zero_iff existing).mp hheight, List.nil_append]
    · cases htruncate : truncate with
      | true =>
        rw [h.existing, htruncate] at hexists
        cases hexists
      | false =>
        have hstored : stored = some existing := by
          rw [h.existing, htruncate] at hexists
          exact hexists
        have hframes : frames ≠ [] := by
          rintro hnil
          have hnothing := (h.nothingStaged_iff hlaws hsame).mpr
            ⟨by rw [hnil]; rfl, fun _ frame hframe => absurd hframe (by simp [hnil])⟩
          rw [hstaged] at hnothing
          cases hnothing
        have hperm := h.pending.perm
          (hsame.appended htruncate existing hstored (by omega)) hframes
        obtain ⟨dataframe, happend, hrecords, -⟩ := hlaws.append hperm
        exact ⟨dataframe, happend, hrecords⟩

/-- The order of the column names matters only when there are staged rows and stored columns. -/
theorem ordered_iff :
    (∀ record ∈ frames.flatMap records, ∀ row, InOrder (columnNames table.pending) record row →
        InOrder table.columnNames record row) ↔
      (truncate = false → ∀ existing first, stored = some existing → 0 < width existing →
        firstWithRows frames = some first → ∀ record ∈ frames.flatMap records, ∀ row,
          InOrder (columnNames first) record row → InOrder (columnNames existing) record row) := by
  unfold StagedTable.columnNames
  rw [h.existing]
  cases truncate with
  | true => simp
  | false =>
    cases stored with
    | none => simp
    | some existing =>
      by_cases hwidth : 0 < width existing
      · simp only [Bool.false_eq_true, if_false, Option.filter_some, hwidth, decide_true, if_true,
          Option.getD_some, Option.some.injEq, forall_const]
        cases hfirst : firstWithRows frames with
        | none =>
          have hheight := (h.pending.height_eq_zero_iff hlaws).mpr hfirst
          rw [← h.pending.records, (hlaws.height_eq_zero_iff table.pending).mp hheight]
          simp
        | some first =>
          have hnames : columnNames table.pending = columnNames first := by
            rw [hlaws.columnNames, hlaws.columnNames, h.pending.columns first hfirst]
          rw [hnames]
          simp [hwidth]
      · refine iff_of_true ?_ ?_
        · simp [Option.filter_some, hwidth]
        · rintro - _ first hexisting hpos
          rw [← Option.some.inj hexisting] at hpos
          exact absurd hpos hwidth

end

theorem identified_iff (h : Holds columns records truncate stored frames table) :
    (∀ existing, table.existing = some existing → "id" ∉ columnNames existing →
      ∀ record ∈ frames.flatMap records, ∀ rowId, record.hasId rowId = false) ↔
    (truncate = false → ∀ existing, stored = some existing → "id" ∉ columnNames existing →
      ∀ record ∈ frames.flatMap records, ∀ rowId, record.hasId rowId = false) := by
  rw [h.existing]
  cases truncate <;> simp

end Holds

/-! ### Closing a handle -/

section

variable {σ π τ : Type} {provider : TableProvider σ π τ δ ν} {storageFails : StorageError → Prop}
  {view : π} {tableName : String} {store : σ} {table : τ} {staged : τ → StagedTable δ}
  {truncate : Bool} {stored : Option δ} {frames : List δ}

/-- Closing the handle stores what it has staged, unless the storage fails; an aborted handle cannot
be closed. -/
structure Closes (provider : TableProvider σ π τ δ ν) (storageFails : StorageError → Prop) (view : π)
    (tableName : String) (store : σ) (table : τ) (staged : StagedTable δ) : Prop where
  nothing : staged.nothingStaged = true →
    (provider.close table store).1 = .ok () ∧ (provider.close table store).2.2 = store
  append : staged.nothingStaged = false → ∀ dataframe,
    appendOptionalDataframe staged.existing staged.pending = .ok dataframe →
      ((provider.close table store).1 = .ok () ∧
        provider.readOptionalDataframe view tableName (provider.close table store).2.2 =
          .ok (some dataframe)) ∨
      ∃ error, storageFails error ∧ (provider.close table store).1 = .error error
  abort : ∃ error, (provider.close (provider.abort table) store).1 = .error error ∧
    (provider.close (provider.abort table) store).2.2 = store

/-- The rows are committed unless a table is truncated and nothing that has columns is written. -/
theorem Closes.close_iff (hlaws : FrameLaws columns records) {staged : StagedTable δ}
    (h : Closes provider storageFails view tableName store table staged)
    (hsame : SameColumns columns truncate stored frames)
    (hholds : Holds columns records truncate stored frames staged)
    (hread : provider.readOptionalDataframe view tableName store = .ok stored) :
    (((provider.close table store).1 = .ok () ∧
      ∃ stored', provider.readOptionalDataframe view tableName (provider.close table store).2.2 =
        .ok stored' ∧ stored'.elim [] records = visibleRecords records truncate stored frames) ∨
      ∃ error, storageFails error ∧ (provider.close table store).1 = .error error) ↔
    (truncate = true → stored.elim [] records = [] ∨
      ∃ frame ∈ frames, 0 < height frame ∨ 0 < width frame) := by
  have hiff := hholds.nothingStaged_iff hlaws hsame
  by_cases hnothing : staged.nothingStaged = true
  · obtain ⟨hresult, hstore⟩ := h.nothing hnothing
    obtain ⟨hfirst, hwidth⟩ := hiff.mp hnothing
    have hempty : frames.flatMap records = [] := by
      have hheight := (hholds.pending.height_eq_zero_iff hlaws).mpr hfirst
      rw [← hholds.pending.records]
      exact (hlaws.height_eq_zero_iff staged.pending).mp hheight
    rw [hresult, hstore, hread]
    cases truncate with
    | false => simp [visibleRecords, hempty]
    | true =>
      have hnone : ¬ ∃ frame ∈ frames, 0 < height frame ∨ 0 < width frame := by
        rintro ⟨frame, hframe, hheight | hpos⟩
        · have hnot := List.find?_eq_none.mp hfirst frame hframe
          exact hnot (decide_eq_true hheight)
        · rw [hwidth rfl frame hframe] at hpos
          omega
      simp [visibleRecords, hempty, hnone]
  · have hstaged : staged.nothingStaged = false := Bool.eq_false_iff.mpr hnothing
    obtain ⟨dataframe, happend, hrecords⟩ := hholds.append hlaws hsame hstaged
    refine iff_of_true ?_ fun htruncate => ?_
    · rcases h.append hstaged dataframe happend with ⟨hresult, hread'⟩ | hfails
      · exact .inl ⟨hresult, some dataframe, hread', hrecords⟩
      · exact .inr hfails
    · rw [hiff, not_and_or] at hnothing
      refine .inr ?_
      rcases hnothing with hfirst | hwidth
      · obtain ⟨first, hfirst⟩ := Option.ne_none_iff_exists'.mp hfirst
        have hheight := @List.find?_some _ (fun frame => decide (0 < height frame)) _ _ hfirst
        exact ⟨first, List.mem_of_find?_eq_some hfirst, .inl (of_decide_eq_true hheight)⟩
      · simp only [Classical.not_imp, not_forall] at hwidth
        obtain ⟨-, frame, hframe, hne⟩ := hwidth
        exact ⟨frame, hframe, .inr (Nat.pos_of_ne_zero hne)⟩

/-- A handle with written frames is faithful exactly when none of them is in the way. -/
theorem Stages.faithful_iff (hlaws : FrameLaws columns records) (h : Stages provider staged)
    (hsame : SameColumns columns truncate stored frames)
    (hholds : Holds columns records truncate stored frames (staged table))
    (hcloses : Closes provider storageFails view tableName store table (staged table))
    (hread : provider.readOptionalDataframe view tableName store = .ok stored) :
    Faithful records provider storageFails view tableName store table
        (visibleRecords records truncate stored frames) ↔
      Undisturbed records truncate stored frames := by
  have hlength := hholds.length hlaws
  have hrows := hholds.rows_iff hlaws hsame
  have hhas := hholds.hasRow_iff hlaws
  have hordered := hholds.ordered_iff hlaws
  have hidentified := hholds.identified_iff
  have hreplaced := hcloses.close_iff hlaws hsame hholds hread
  constructor
  · intro hfaithful
    have hshown := hfaithful.rows
    have hfound := hfaithful.hasRow
    simp only [h.columnNames, h.rows] at hshown
    simp only [h.hasRow] at hfound
    exact ⟨hreplaced.mp hfaithful.close, hordered.mp (hrows.mp hshown),
      hidentified.mp (hhas.mp hfound)⟩
  · intro hundisturbed
    have hshown := hrows.mpr (hordered.mpr hundisturbed.ordered)
    have hfound := hhas.mpr (hidentified.mpr hundisturbed.identified)
    constructor
    · rw [h.length, hlength]
    · simpa only [h.columnNames, h.rows] using hshown
    · simpa only [h.hasRow] using hfound
    · exact hreplaced.mpr hundisturbed.replaced
    · exact hcloses.abort

end

/-! ### Both providers -/

theorem memory_closes {view : MemoryTableProvider} {tableName key : String} {tables : MemoryTables δ}
    {staged : StagedTable δ} (hkey : view.key tableName = .ok key) (hopen : staged.closed = false)
    (hexisting : staged.existing = if staged.truncate then none else tables.lookup key) :
    Closes memoryProvider (fun _ => False) view tableName tables ⟨key, staged⟩ staged := by
  have hcheck : staged.checkOpen key = .ok () := by simp [StagedTable.checkOpen, hopen]
  constructor
  · intro hnothing
    simp only [memoryProvider, MemoryTable.close, hcheck, hnothing, if_true, and_self]
  · intro hstaged dataframe happend
    refine .inl ?_
    rw [hexisting] at happend
    simp only [memoryProvider, MemoryTable.close, hcheck, hstaged, Bool.false_eq_true, if_false,
      happend, true_and]
    simp only [MemoryTableProvider.readDataframe, hkey, bind, Except.bind, Finmap.lookup_insert]
    rfl
  · exact ⟨.tableClosed key, rfl, rfl⟩

/-- The errors of the storage itself. -/
def FilesystemFails (error : StorageError) : Prop := ∃ path source, error = .filesystem path source

/-- What has been written to an object is read, unless the storage has failed. -/
theorem FileStorage.set_cases {storage : FileStorage} {name bytes : String} {path : Path}
    (hpath : storage.logicalPath name = .ok path) (hname : name ≠ "") (hne : path ≠ [])
    (fs : FileSystem) :
    (∃ fs', storage.set name bytes fs = (.ok (), fs') ∧ storage.get name fs' = .ok (some bytes)) ∨
      ∃ error, FilesystemFails error ∧ (storage.set name bytes fs).1 = .error error := by
  unfold FileStorage.set FileStorage.get
  simp only [hpath, bind, Except.bind, FileStorage.node_eq hname, hname, false_and, false_or,
    if_false]
  rcases FileSystem.createDirAll (fun _ => false) path.tail fs with ⟨result, fs'⟩
  cases result with
  | error source => exact .inr ⟨_, ⟨path.tail, source, rfl⟩, rfl⟩
  | ok _ =>
    dsimp only
    by_cases hdirectory : fs'.isDirectory path
    · rw [if_pos hdirectory]
      exact .inr ⟨_, ⟨path, .isADirectory, rfl⟩, rfl⟩
    · rw [if_neg hdirectory]
      refine .inl ⟨_, rfl, ?_⟩
      have hmetadata : (fs'.write path bytes).metadata path = .ok (.file bytes) := by
        rw [FileSystem.metadata, if_neg hne, FileSystem.write, Finmap.lookup_insert]
      rw [hmetadata]

theorem parquet_closes (hlossless : Lossless δ) {view : ParquetTableProvider} {tableName : String}
    {object : String} {fs : FileSystem} {staged : StagedTable δ} {stored : Option δ}
    (hobject : tableObject tableName = .ok object) (hopen : staged.closed = false)
    (hread : view.readOptional tableName fs = .ok stored)
    (hexisting : staged.existing = if staged.truncate then none else stored) :
    Closes parquetProvider FilesystemFails view tableName fs ⟨view.storage, object, staged⟩ staged := by
  have hcheck : staged.checkOpen object = .ok () := by simp [StagedTable.checkOpen, hopen]
  have hcurrent : ParquetTable.current ⟨view.storage, object, staged⟩ fs = .ok staged.existing := by
    rw [hexisting, ParquetTable.current]
    by_cases htruncate : staged.truncate
    · rw [if_pos htruncate, if_pos htruncate]
    · rw [if_neg htruncate, if_neg htruncate, ← hread, ParquetTableProvider.readOptional, hobject]
      rfl
  obtain ⟨path, hpath, hnonempty, hne⟩ : ∃ path,
      view.storage.logicalPath object = .ok path ∧ object ≠ "" ∧ path ≠ [] := by
    by_cases hname : TableName tableName
    · rw [tableObject_ok hname] at hobject
      obtain rfl := Except.ok.inj hobject
      exact ⟨_, logicalPath_tableObject hname, parquet_ne_empty tableName, List.cons_ne_nil _ _⟩
    · obtain ⟨reason, herror⟩ := validateTableName_error hname
      rw [tableObject, herror] at hobject
      cases hobject
  constructor
  · intro hnothing
    simp only [parquetProvider, ParquetTable.close, hcheck, hnothing, if_true, and_self]
  · intro hstaged dataframe happend
    obtain ⟨bytes, hwrite, hfinish⟩ := hlossless dataframe
    have hbytes : (do
        let existing ← ParquetTable.current ⟨view.storage, object, staged⟩ fs
        let dataframe ← appendOptionalDataframe existing staged.pending
        writeParquetDataframe dataframe) = .ok bytes := by
      simp only [hcurrent, bind, Except.bind, happend, writeParquetDataframe, hwrite]
      rfl
    simp only [parquetProvider, ParquetTable.close, hcheck, hstaged, Bool.false_eq_true, if_false,
      hbytes]
    rcases FileStorage.set_cases hpath hnonempty hne fs with ⟨fs', hset, hget⟩ | ⟨error, hfails, herror⟩
    · refine .inl ⟨by rw [hset], ?_⟩
      rw [hset]
      simp only [ParquetTableProvider.readOptional, hobject, bind, Except.bind, hget,
        readParquetDataframe, hfinish]
      rfl
    · refine .inr ⟨error, hfails, ?_⟩
      rcases hset : view.storage.set object bytes fs with ⟨result, fs'⟩
      rw [hset] at herror
      dsimp only at herror
      subst herror
      rfl
  · exact ⟨.tableClosed object, rfl, rfl⟩

theorem memory_writeAll_eq (key : String) (staged : StagedTable δ) (frames : List δ) :
    memoryProvider.writeAll ⟨key, staged⟩ frames =
      ⟨key, (memoryProvider.writeAll ⟨key, staged⟩ frames).staged⟩ := by
  induction frames generalizing staged with
  | nil => rfl
  | cons frame frames ih => exact ih _

theorem parquet_writeAll_eq (storage : FileStorage) (object : String) (staged : StagedTable δ)
    (frames : List δ) :
    parquetProvider.writeAll ⟨storage, object, staged⟩ frames =
      ⟨storage, object, (parquetProvider.writeAll ⟨storage, object, staged⟩ frames).staged⟩ := by
  induction frames generalizing staged with
  | nil => rfl
  | cons frame frames ih => exact ih _

section

variable {σ π τ : Type} {provider : TableProvider σ π τ δ ν} {staged : τ → StagedTable δ} {table : τ}
  {truncate : Bool} {stored : Option δ} {frames : List δ}

/-- A new handle holds the frames after they have been written. -/
theorem Stages.holds (h : Stages provider staged) (hlaws : FrameLaws columns records)
    (hsame : SameColumns columns truncate stored frames)
    (hopened : staged table = .opened (if truncate then none else stored) truncate) :
    Holds columns records truncate stored frames (staged (provider.writeAll table frames)) ∧
      (staged (provider.writeAll table frames)).closed = false := by
  have hstart : StagedAs columns records (staged table).pending [] := by
    rw [hopened]
    exact StagedAs.nil hlaws
  have hopen : (staged table).closed = false := by rw [hopened]; rfl
  obtain ⟨pending, hwritten, hpending⟩ := h.writeAll_staged hlaws hstart hopen hsame.written
  rw [List.nil_append] at hpending
  rw [hwritten, hopened]
  exact ⟨⟨rfl, rfl, hpending, rfl⟩, rfl⟩

end

/-- For both providers, a handle shows and commits what has been written exactly when no written row
is in another order than the stored columns, no row with an identifier is written to a table without
the column, and no table with rows is truncated without a frame that has rows or columns. -/
theorem handle_faithful_iff (hlaws : FrameLaws columns records) (hlossless : Lossless δ) :
    (∀ {view tableName truncate} {tables : MemoryTables δ} {table stored} {frames : List δ},
      memoryProvider.readOptionalDataframe view tableName tables = .ok stored →
        memoryProvider.openTable view tableName truncate tables = .ok table →
          SameColumns columns truncate stored frames →
            (Faithful records memoryProvider (fun _ => False) view tableName tables
                (memoryProvider.writeAll table frames)
                (visibleRecords records truncate stored frames) ↔
              Undisturbed records truncate stored frames)) ∧
    (∀ {view tableName truncate} {fs : FileSystem} {table stored} {frames : List δ},
      parquetProvider.readOptionalDataframe view tableName fs = .ok stored →
        parquetProvider.openTable view tableName truncate fs = .ok table →
          SameColumns columns truncate stored frames →
            (Faithful records parquetProvider FilesystemFails view tableName fs
                (parquetProvider.writeAll table frames)
                (visibleRecords records truncate stored frames) ↔
              Undisturbed records truncate stored frames)) := by
  constructor
  · intro view tableName truncate tables table stored frames hread hopen hsame
    obtain ⟨key, hkey, htable⟩ := bind_eq_ok.mp hopen
    obtain rfl := Except.ok.inj htable
    have hstored : tables.lookup key = stored := by
      simp only [memoryProvider, MemoryTableProvider.readDataframe, hkey, bind, Except.bind] at hread
      cases hlookup : tables.lookup key with
      | none =>
        rw [hlookup] at hread
        exact Except.ok.inj hread
      | some dataframe =>
        rw [hlookup] at hread
        exact Except.ok.inj hread
    rw [hstored]
    obtain ⟨hholds, hclosed⟩ := memory_stages.holds hlaws hsame
      (rfl : (MemoryTable.mk key _).staged = .opened (if truncate then none else stored) truncate)
    have hcloses := memory_closes hkey hclosed (by rw [hholds.existing, hholds.truncate, hstored])
    refine memory_stages.faithful_iff hlaws hsame hholds ?_ hread
    rw [memory_writeAll_eq]
    exact hcloses
  · intro view tableName truncate fs table stored frames hread hopen hsame
    obtain ⟨object, hobject, hopen⟩ := bind_eq_ok.mp hopen
    obtain rfl : ⟨view.storage, object, .opened (if truncate then none else stored) truncate⟩ =
        table := by
      cases truncate with
      | true => exact Except.ok.inj hopen
      | false =>
        obtain ⟨existing, hexisting, htable⟩ := bind_eq_ok.mp hopen
        obtain rfl := Except.ok.inj (hread.symm.trans hexisting)
        exact Except.ok.inj htable
    obtain ⟨hholds, hclosed⟩ := parquet_stages.holds hlaws hsame
      (rfl : (ParquetTable.mk view.storage object _).staged =
        .opened (if truncate then none else stored) truncate)
    have hcloses := parquet_closes hlossless hobject hclosed hread
      (by rw [hholds.existing, hholds.truncate])
    refine parquet_stages.faithful_iff hlaws hsame hholds ?_ hread
    rw [parquet_writeAll_eq]
    exact hcloses

/-! ### Frames of a few columns -/

namespace SampleTable

def schema (frame : SampleTable) : List (String × Unit) := frame.columnNames.map fun name => (name, ())

def rowRecord (names : List String) : Record Empty := fun name =>
  if name ∈ names then some (value name) else none

def rowRecords (frame : SampleTable) : List (Record Empty) :=
  List.replicate frame.count (rowRecord frame.columnNames)

theorem schema_map_fst (frame : SampleTable) : frame.schema.map Prod.fst = frame.columnNames := by
  simp [schema, Function.comp_def]

/-- A permutation of the columns is the order of a frame. -/
theorem exists_names_of_perm {order : List String} {columns : SampleColumns}
    (h : order.Perm (names columns)) : ∃ other, names other = order ∧
      [SampleColumns.idTitle, .titleId, .name].find? (fun other => names other = order) =
        some other := by
  have hpair : ∀ {first second : String}, first ≠ second → order.Perm [first, second] →
      order = [first, second] ∨ order = [second, first] := by
    intro first second hne hperm
    obtain ⟨x, y, rfl⟩ := List.length_eq_two.mp hperm.length_eq
    have hnodup : x ≠ y := by simpa using hperm.nodup_iff.mpr (by simpa using hne)
    have hx := hperm.subset (List.mem_cons_self ..)
    have hy := hperm.subset (List.mem_cons_of_mem x (List.mem_cons_self ..))
    simp only [List.mem_cons, List.not_mem_nil, or_false] at hx hy
    rcases hx with rfl | rfl <;> rcases hy with rfl | rfl <;> simp_all
  cases columns with
  | idTitle =>
    rcases hpair (by decide) h with rfl | rfl
    · exact ⟨.idTitle, rfl, rfl⟩
    · exact ⟨.titleId, rfl, rfl⟩
  | titleId =>
    rcases hpair (by decide) h with rfl | rfl
    · exact ⟨.titleId, rfl, rfl⟩
    · exact ⟨.idTitle, rfl, rfl⟩
  | name =>
    obtain rfl := List.perm_singleton.mp h
    exact ⟨.name, rfl, rfl⟩

theorem laws : FrameLaws SampleTable.schema SampleTable.rowRecords where
  columnNames frame := (schema_map_fst frame).symm
  width frame := by simp [DataFrame.width, schema]
  height frame := by simp [DataFrame.height, rowRecords]
  defined frame record hrecord name := by
    rw [List.eq_of_mem_replicate hrecord]
    by_cases hname : name ∈ frame.columnNames <;> simp [DataFrame.columnNames, rowRecord, hname]
  getRow frame index record hrecord := by
    obtain ⟨hindex, rfl⟩ := List.getElem?_eq_some_iff.mp hrecord
    have hcount : index < frame.count := by simpa [rowRecords] using hindex
    refine ⟨frame.columnNames.map value, by simp [DataFrame.getRow, hcount], ?_⟩
    rw [List.map_map]
    refine List.map_congr_left fun name hname => ?_
    have hmem : name ∈ frame.columnNames := hname
    have hget : frame.rowRecords[index] = rowRecord frame.columnNames := List.getElem_replicate ..
    rw [hget, rowRecord, if_pos hmem]
    rfl
  select frame order hperm := by
    have hnames := hperm.map Prod.fst
    rw [schema_map_fst] at hnames
    have horder : (order.map Prod.fst).map (fun name => (name, ())) = order := by
      simp [Function.comp_def]
    cases frame with
    | empty =>
      have hnil : order = [] := hperm.eq_nil
      subst hnil
      exact ⟨.empty, rfl, rfl, rfl⟩
    | rows cs count =>
      obtain ⟨other, hother, hfind⟩ := exists_names_of_perm hnames
      refine ⟨.rows other count, ?_, ?_, ?_⟩
      · have hsame : (names cs).Perm (order.map Prod.fst) := hnames.symm
        simp [DataFrame.select, SampleTable.select, hfind, hsame]
      · show (names other).map _ = order
        rw [hother, horder]
      · show List.replicate count _ = List.replicate count _
        congr 1
        funext name
        have hmem : name ∈ (rows other count).columnNames ↔ name ∈ (rows cs count).columnNames := by
          show name ∈ names other ↔ _
          rw [hother]
          exact hnames.mem_iff
        simp only [rowRecord, hmem]
  vstack frame other hcolumns := by
    cases frame with
    | empty =>
      cases other with
      | empty => exact ⟨.empty, rfl, rfl, rfl⟩
      | rows cs' count' => cases cs' <;> cases hcolumns
    | rows cs count =>
      cases other with
      | empty => cases cs <;> cases hcolumns
      | rows cs' count' =>
        have hsame : cs = cs' := by
          have hnames : names cs = names cs' := by
            have hfst := congrArg (List.map Prod.fst) hcolumns
            rwa [schema_map_fst, schema_map_fst] at hfst
          revert hnames
          cases cs <;> cases cs' <;> decide
        subst hsame
        refine ⟨.rows cs (count + count'), by simp [DataFrame.vstack, SampleTable.vstack], rfl, ?_⟩
        exact (List.replicate_append_replicate).symm
  empty := ⟨rfl, rfl⟩

theorem lossless : Lossless SampleTable := by
  intro frame
  refine ⟨_, rfl, ?_⟩
  cases frame with
  | empty => rfl
  | rows cs count => cases cs <;> simp [finishRead, encode, decode]

end SampleTable

/-- A stored row. -/
def sampleTables : MemoryTables SampleTable := (∅ : MemoryTables SampleTable).insert "t" (.rows .idTitle 1)

/-- A handle that appends to it. -/
def appendingHandle : MemoryTable SampleTable := ⟨"t", .opened (some (.rows .idTitle 1)) false⟩

theorem handle_faithful_iff_sample :
    Faithful SampleTable.rowRecords memoryProvider (fun _ => False) ⟨""⟩ "t" sampleTables
      (memoryProvider.writeAll appendingHandle [.rows .idTitle 2])
      (visibleRecords SampleTable.rowRecords false (some (.rows .idTitle 1)) [.rows .idTitle 2]) := by
  have hopen : memoryProvider.openTable ⟨""⟩ "t" false sampleTables = .ok appendingHandle := rfl
  refine ((handle_faithful_iff SampleTable.laws SampleTable.lossless).1 rfl hopen
    ⟨List.pairwise_singleton _ _, ?_⟩).mpr ⟨fun htruncate => (nomatch htruncate), ?_, ?_⟩
  · rintro - existing hexisting - frame hframe
    rw [← Option.some.inj hexisting, List.mem_singleton.mp hframe]
    exact .refl _
  · rintro - existing first hexisting - hfirst record - row horder
    obtain rfl := Option.some.inj hexisting
    obtain rfl := Option.some.inj hfirst
    exact horder
  · rintro - existing hexisting hid
    obtain rfl := Option.some.inj hexisting
    exact absurd (by decide) hid

/-- The handle after a row in the other order has been written. -/
def exchangedHandle : MemoryTable SampleTable := memoryProvider.writeAll appendingHandle [.rows .titleId 1]

/-- A row that is written with the columns in another order is shown with its values exchanged, and
truncating a table without writing to it leaves its row. -/
theorem handle_shows_exchanged :
    (memoryProvider.columnNames exchangedHandle = ["id", "title"] ∧
      (memoryProvider.rows 2 exchangedHandle).1 =
        [.ok [.stringOwned "1", .stringOwned "A"], .ok [.stringOwned "A", .stringOwned "1"]] ∧
      ¬ Faithful SampleTable.rowRecords memoryProvider (fun _ => False) ⟨""⟩ "t" sampleTables
        exchangedHandle
        (visibleRecords SampleTable.rowRecords false (some (.rows .idTitle 1)) [.rows .titleId 1])) ∧
    (memoryProvider.openTable ⟨""⟩ "t" true sampleTables = .ok (memoryHandle .empty) ∧
      (memoryProvider.close (memoryHandle .empty) sampleTables).1 = .ok () ∧
      memoryProvider.readDataframe ⟨""⟩ "t"
          (memoryProvider.close (memoryHandle .empty) sampleTables).2.2 =
        .ok (SampleTable.rows .idTitle 1)) := by
  refine ⟨⟨rfl, rfl, fun h => ?_⟩, rfl, rfl, rfl⟩
  have hrow := List.forall₂_iff_get.mp (h.rows 2)
  obtain ⟨row, hrow, hvalues⟩ := hrow.2 1 (by decide) (by decide)
  obtain rfl := Except.ok.inj hrow
  unfold InOrder at hvalues
  exact absurd hvalues (by decide)

end GraphLoom.Storage
