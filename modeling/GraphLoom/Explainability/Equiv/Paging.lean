import GraphLoom.Explainability.Equiv.Sqlite
import GraphLoom.Foundation.Paging
import Mathlib.Data.Prod.Lex

/-!
# Paging through runs and events

A client that asks for a page of runs, then for the runs behind the last one, and so on to the first
short page, is given every run that its filters select, once, newest first; and the same way every
event of a run, once, by sequence (`paging_visits_all`).

Runs are listed by `historyKey`, downwards.  The SQLite store sorts and compares texts, and refuses
to answer when a selected row cannot be read back.  A row that can be read back has the text of a
canonical timestamp, so its texts compare as the values do.
-/

namespace GraphLoom.Explainability

open Foundation OrderDual MemoryState

variable {ε : Type}

/-! ### What paging promises -/

/-- The filters of a query, apart from its cursor. -/
structure RunQuery.Selects (query : RunQuery) (run : ExplainabilityRun) : Prop where
  kind : ∀ kind, query.kind = some kind → run.kind = kind
  status : ∀ status, query.status = some status → run.status = status
  queryMethod : ∀ method, query.queryMethod = some method → run.queryMethod = some method

/-- The cursor behind a run. -/
def RunListCursor.behind (run : ExplainabilityRun) : RunListCursor := ⟨run.startedAt, run.runId⟩

/-- The run stands before the other one under `started_at DESC, run_id DESC`. -/
def NewerThan (run other : ExplainabilityRun) : Prop :=
  other.startedAt < run.startedAt ∨
    other.startedAt = run.startedAt ∧ other.runId.asStr < run.runId.asStr

/-- The limits that `list_runs` accepts. -/
def AcceptedRunLimit (limit : ℕ) : Prop := 1 ≤ limit ∧ limit ≤ maxRunQueryLimit

/-- The limits that `load_events` accepts. -/
def AcceptedEventLimit (limit : ℕ) : Prop := 1 ≤ limit ∧ limit ≤ maxEventQueryLimit

/-- What the pages of `list_runs` add up to, from the first page on. -/
def PagesRuns (list : RunQuery → Except ExplainabilityStoreError (List ExplainabilityRun))
    (query : RunQuery) (result : Except ExplainabilityStoreError (List ExplainabilityRun)) : Prop :=
  PagesThrough (fun before => list { query with before }) RunListCursor.behind query.limit result

/-- What the pages of `load_events` add up to, from the first page on. -/
def PagesEvents
    (load : EventQuery → Except ExplainabilityStoreError (List (ExplainabilityEnvelope ε)))
    (limit : ℕ) (result : Except ExplainabilityStoreError (List (ExplainabilityEnvelope ε))) :
    Prop :=
  PagesThrough (fun afterSequence => load { afterSequence, limit })
    ExplainabilityEnvelope.sequence limit result

/-- Paging visits exactly the selected ones of these runs, each once, the newest first. -/
def VisitsRuns (list : RunQuery → Except ExplainabilityStoreError (List ExplainabilityRun))
    (stored : ExplainabilityRun → Prop) (query : RunQuery) : Prop :=
  ∃ runs, PagesRuns list query (.ok runs) ∧ runs.Pairwise NewerThan ∧
    ∀ run, run ∈ runs ↔ stored run ∧ query.Selects run

/-- Paging visits exactly these events, each once, by sequence. -/
def VisitsEvents
    (load : EventQuery → Except ExplainabilityStoreError (List (ExplainabilityEnvelope ε)))
    (stored : ExplainabilityEnvelope ε → Prop) (limit : ℕ) : Prop :=
  ∃ events, PagesEvents load limit (.ok events) ∧
    (events.Pairwise fun earlier later => earlier.sequence < later.sequence) ∧
    ∀ e, e ∈ events ↔ stored e

/-! ### Orders and filters -/

/-- What runs are listed by, downwards. -/
def historyKey (run : ExplainabilityRun) : (DateTime ×ₗ String)ᵒᵈ :=
  toDual (toLex (run.startedAt, run.runId.asStr))

/-- What rows are listed by, downwards. -/
def RunRow.historyKey (row : RunRow) : (String ×ₗ String)ᵒᵈ :=
  toDual (toLex (row.startedAt, row.runId))

theorem newerThan_iff {run other : ExplainabilityRun} :
    NewerThan run other ↔ historyKey run < historyKey other := by
  rw [historyKey, historyKey, toDual_lt_toDual, Prod.Lex.toLex_lt_toLex]
  rfl

theorem historyOrder_iff (left right : ExplainabilityRun) :
    historyOrder left right ↔ historyKey left ≤ historyKey right := by
  rw [historyKey, historyKey, toDual_le_toDual, Prod.Lex.toLex_le_toLex]
  rfl

theorem historyRowOrder_iff (left right : RunRow) :
    SqliteState.historyRowOrder left right ↔ left.historyKey ≤ right.historyKey := by
  rw [RunRow.historyKey, RunRow.historyKey, toDual_le_toDual, Prod.Lex.toLex_le_toLex]
  rfl

theorem RunRow.historyKey_lt_iff {row other : RunRow} :
    row.historyKey < other.historyKey ↔
      other.startedAt < row.startedAt ∨
        other.startedAt = row.startedAt ∧ other.runId < row.runId := by
  rw [RunRow.historyKey, RunRow.historyKey, toDual_lt_toDual, Prod.Lex.toLex_lt_toLex]

theorem validateLimit_of_accepted {limit min max : ℕ} (h : min ≤ limit ∧ limit ≤ max)
    (kind : String) : validateLimit limit min max kind = .ok () := by
  rw [validateLimit, if_pos h]

variable {query : RunQuery} {run : ExplainabilityRun}

/-- Without a cursor a query selects by its filters. -/
theorem matchesQuery_iff :
    matchesQuery { query with before := none } run = true ↔ query.Selects run := by
  simp only [matchesQuery, Bool.and_eq_true, Option.all_eq_true, decide_eq_true_eq,
    reduceCtorEq, false_implies, implies_true, and_true]
  constructor
  · rintro ⟨⟨hkind, hstatus⟩, hmethod⟩
    exact ⟨hkind, hstatus, hmethod⟩
  · intro h
    exact ⟨⟨h.kind, h.status⟩, h.queryMethod⟩

/-- A cursor selects what the order puts behind its run. -/
theorem matchesQuery_behind (query : RunQuery) (run other : ExplainabilityRun) :
    matchesQuery { query with before := some (.behind run) } other =
      (matchesQuery { query with before := none } other &&
        decide (historyKey run < historyKey other)) := by
  simp only [matchesQuery, Option.all_some, Option.all_none, Bool.and_true]
  congr 1
  rw [isStrictlyOlderThan, decide_eq_decide, ← newerThan_iff]
  rfl

variable {row : RunRow}

/-- A cursor selects the rows that the order puts behind the row of its run. -/
theorem matchesQueryRow_behind (query : RunQuery)
    (hstarted : datetimeToSqlText run.startedAt = row.startedAt)
    (hrunId : run.runId.asStr = row.runId) (other : RunRow) :
    SqliteState.matchesQueryRow { query with before := some (.behind run) } other =
      (SqliteState.matchesQueryRow { query with before := none } other &&
        decide (row.historyKey < other.historyKey)) := by
  simp only [SqliteState.matchesQueryRow, Option.all_some, Option.all_none, Bool.and_true]
  congr 1
  rw [decide_eq_decide, RunRow.historyKey_lt_iff, ← hstarted, ← hrunId]
  rfl

/-! ### The in-memory store -/

variable {id : ExplainabilityRunId} {limit : ℕ}

section Memory

variable {m : MemoryState ε}

theorem nodup_historyKeys (hm : m.Contract) (query : RunQuery) :
    ((m.collectMatchingRuns query).map historyKey).Nodup := by
  refine List.Nodup.of_map (fun key => (ofLex (ofDual key)).2) ?_
  rw [List.map_map]
  exact hm.nodup_runIds.sublist (List.filter_sublist.map _)

/-- The runs a query selects are the matching ones of the stored runs. -/
theorem mem_collectMatchingRuns_iff (hm : m.Contract) :
    run ∈ m.collectMatchingRuns { query with before := none } ↔
      m.run run.runId = some run ∧ query.Selects run := by
  rw [collectMatchingRuns, List.mem_filter, mem_values_iff,
    matchesQuery_iff]
  refine and_congr_left fun _ => ⟨?_, fun h => ⟨_, h⟩⟩
  rintro ⟨id, hrun⟩
  rwa [hm.keyed id run hrun]

theorem listRuns_of_accepted (hlimit : AcceptedRunLimit query.limit)
    (before : Option RunListCursor) :
    m.listRuns { query with before } =
      .ok (((m.collectMatchingRuns { query with before }).insertionSort
        historyOrder).take query.limit) := by
  rw [listRuns, validateLimit_of_accepted hlimit]
  rfl

/-- Paging through the runs in memory. -/
theorem visitsRuns_memory (hm : m.Contract) (hlimit : AcceptedRunLimit query.limit) :
    VisitsRuns m.listRuns (fun run => m.run run.runId = some run) query := by
  have hkeys := nodup_historyKeys hm { query with before := none }
  have hpages : PagesRuns m.listRuns query
      (((m.collectMatchingRuns { query with before := none }).insertionSort
        historyOrder).mapM .ok) := by
    refine pagesThrough_sorted historyOrder_iff hkeys hlimit.1 ?_ fun run _ a ha => ?_
    · rw [listRuns_of_accepted hlimit, mapM_ok]
    · obtain rfl := Except.ok.inj ha
      have hbehind : m.collectMatchingRuns { query with before := some (.behind run) } =
          (m.collectMatchingRuns { query with before := none }).filter
            fun other => historyKey run < historyKey other := by
        rw [collectMatchingRuns, collectMatchingRuns, List.filter_filter]
        refine List.filter_congr fun other _ => ?_
        rw [matchesQuery_behind, Bool.and_comm]
      rw [listRuns_of_accepted hlimit, hbehind, mapM_ok]
  rw [mapM_ok] at hpages
  refine ⟨_, hpages, ?_, fun run => ?_⟩
  · exact (insertionSort_pairwise_lt historyOrder_iff hkeys).imp fun h => newerThan_iff.mpr h
  · rw [List.mem_insertionSort, mem_collectMatchingRuns_iff hm]

/-- Paging through the events of a run in memory. -/
theorem visitsEvents_memory (hm : m.Contract)
    (hrun : (m.run id).isSome = true) (hlimit : AcceptedEventLimit limit) :
    VisitsEvents (m.loadEvents id) (fun e => e ∈ m.eventsOf id) limit := by
  have hmem : id ∈ m.runs := mem_runs_iff.mpr (Option.isSome_iff_exists.mp hrun)
  have hload : ∀ afterSequence, m.loadEvents id { afterSequence, limit } =
      .ok (((m.eventsOf id).filter fun e => afterSequence.getD 0 < e.sequence).take limit) := by
    intro afterSequence
    rw [loadEvents, validateLimit_of_accepted hlimit]
    exact if_pos hmem
  have hsorted :
      (m.eventsOf id).Pairwise fun earlier later => earlier.sequence < later.sequence := by
    rw [← List.pairwise_map (f := ExplainabilityEnvelope.sequence) (R := (· < ·)),
      hm.sequences id]
    exact List.pairwise_lt_range'
  have : Std.Asymm fun a b : ExplainabilityEnvelope ε => a.sequence < b.sequence :=
    ⟨fun a b => lt_asymm⟩
  have hpages : PagesEvents (m.loadEvents id) limit ((m.eventsOf id).mapM .ok) := by
    refine paged_iff hlimit.1 hsorted ?_ fun e _ a ha => ?_
    · have hall : ((m.eventsOf id).filter fun e => 0 < e.sequence) = m.eventsOf id :=
        List.filter_eq_self.mpr fun e _ => by simpa using e.nonZero
      rw [hload, Option.getD_none, hall, mapM_ok]
    · obtain rfl := Except.ok.inj ha
      rw [hload, Option.getD_some, mapM_ok]
  rw [mapM_ok] at hpages
  exact ⟨_, hpages, hsorted, fun e => Iff.rfl⟩

end Memory

/-! ### What the tables enforce -/

theorem liftBackend_eq_ok {α : Type} {x : Except SqliteStoreBackendError α} {a : α} :
    liftBackend x = .ok a ↔ x = .ok a := by
  cases x <;> simp [liftBackend]

/-- What the schema of the two tables enforces: the primary keys, the check on sequences, and the
64 bits of an `INTEGER`. -/
structure SqliteState.Constraints (s : SqliteState) : Prop where
  runIds : (s.runs.map RunRow.runId).Nodup
  sequences : (s.events.map fun row => (row.runId, row.sequence)).Nodup
  positive : ∀ row ∈ s.events, 0 < row.sequence
  fits : ∀ row ∈ s.events, row.sequence ≤ i64Max

namespace SqliteState.Constraints

variable {codec : EventCodec ε} {s : SqliteState}

theorem new : SqliteState.new.Constraints := by
  constructor <;> simp [SqliteState.new]

/-- A transaction keeps what its body keeps. -/
theorem transaction {α : Type} (hs : s.Constraints) {operation : String}
    {body : Except SqliteStoreFailure (α × SqliteState)}
    (hbody : ∀ a s', body = .ok (a, s') → s'.Constraints) :
    (s.transaction operation body).2.Constraints := by
  unfold SqliteState.transaction
  split
  · exact hs
  · next a s' => exact hbody a s' rfl

variable {s' : SqliteState}

theorem insertRunRow (hs : s.Constraints) (h : s.insertRunRow row = .ok s') : s'.Constraints := by
  unfold SqliteState.insertRunRow at h
  split at h
  · cases h
  · next hok =>
    obtain rfl := Except.ok.inj h
    refine ⟨?_, hs.sequences, hs.positive, hs.fits⟩
    have hfresh : row.runId ∉ s.runs.map RunRow.runId := by
      intro hmem
      obtain ⟨other, hother, hid⟩ := List.mem_map.mp hmem
      refine hok (Or.inl ?_)
      rw [SqliteState.runExists, SqliteState.runRow, List.find?_isSome]
      exact ⟨other, hother, by simpa using hid⟩
    rw [List.map_append, List.map_singleton, ← List.concat_eq_append]
    exact hs.runIds.concat hfresh

theorem updateRuns (hs : s.Constraints) {p : RunRow → Bool} {set : RunRow → RunRow}
    (hset : ∀ row, (set row).runId = row.runId) : (s.updateRuns p set).2.Constraints := by
  refine ⟨?_, hs.sequences, hs.positive, hs.fits⟩
  rw [SqliteState.updateRuns, Table.map_key_update hset]
  exact hs.runIds

theorem insertEventRow (hs : s.Constraints) {row : EventRow}
    (hfits : row.sequence ≤ i64Max) (h : s.insertEventRow row = .ok s') : s'.Constraints := by
  unfold SqliteState.insertEventRow at h
  split at h
  · cases h
  · next hok =>
    obtain rfl := Except.ok.inj h
    rw [not_or, not_or, not_le] at hok
    obtain ⟨hnew, hpositive, -⟩ := hok
    have hfresh : (row.runId, row.sequence) ∉
        s.events.map fun row => (row.runId, row.sequence) := by
      intro hmem
      obtain ⟨other, hother, hkey⟩ := List.mem_map.mp hmem
      refine hnew (List.any_eq_true.mpr ⟨other, hother, ?_⟩)
      simpa using hkey
    refine ⟨hs.runIds, ?_, fun other hother => ?_, fun other hother => ?_⟩
    · rw [List.map_append, List.map_singleton, ← List.concat_eq_append]
      exact hs.sequences.concat hfresh
    · rw [List.mem_append, List.mem_singleton] at hother
      rcases hother with hother | rfl
      · exact hs.positive other hother
      · exact hpositive
    · rw [List.mem_append, List.mem_singleton] at hother
      rcases hother with hother | rfl
      · exact hs.fits other hother
      · exact hfits

theorem insertEventRows (hs : s.Constraints) {prepared : List PreparedEvent}
    (hfits : ∀ item ∈ prepared, item.row.sequence ≤ i64Max)
    (h : s.insertEventRows prepared = .ok s') : s'.Constraints := by
  induction prepared generalizing s with
  | nil =>
    obtain rfl := Except.ok.inj h
    exact hs
  | cons item rest ih =>
    obtain ⟨hitem, hrest⟩ := List.forall_mem_cons.mp hfits
    obtain ⟨s₁, hinsert, h⟩ := bind_eq_ok.mp h
    exact ih (hs.insertEventRow hitem hinsert) hrest h

theorem sequence_prepareEvent {e : ExplainabilityEnvelope ε} {item : PreparedEvent}
    (h : prepareEvent codec e = .ok item) : item.row.sequence ≤ i64Max := by
  unfold prepareEvent at h
  split at h
  · cases h
  · simp only [bind_eq_ok] at h
    obtain ⟨payload, -, eventType, -, text, -, sequence, hsequence, h⟩ := h
    obtain rfl := Except.ok.inj h
    unfold u64ToSqliteInteger at hsequence
    split at hsequence
    · next hle =>
      obtain rfl := Except.ok.inj hsequence
      exact Int.ofNat_le.mpr hle
    · cases hsequence

theorem appendPreparedEvents (hs : s.Constraints) {prepared : List PreparedEvent} {u : Unit}
    (hfits : ∀ item ∈ prepared, item.row.sequence ≤ i64Max)
    (h : s.appendPreparedEvents id prepared = .ok (u, s')) : s'.Constraints := by
  unfold SqliteState.appendPreparedEvents at h
  split at h
  · cases h
  · simp only [bind_eq_ok] at h
    obtain ⟨status, -, startedAt, -, completedAt, -, -, -, h⟩ := h
    split at h
    · cases h
    · simp only [bind_eq_ok] at h
      obtain ⟨count, -, final, -, finalSqlite, -, s₁, hinsert, h⟩ := h
      split at h
      · cases h
      · obtain ⟨-, rfl⟩ := Prod.mk.inj (Except.ok.inj h)
        exact (hs.insertEventRows hfits (liftBackend_eq_ok.mp hinsert)).updateRuns fun _ => rfl

theorem completeRunRow (hs : s.Constraints) {completion : RunCompletion} {u : Unit}
    (h : s.completeRunRow completion = .ok (u, s')) : s'.Constraints := by
  unfold SqliteState.completeRunRow at h
  split at h
  · cases h
  · simp only [bind_eq_ok] at h
    obtain ⟨status, -, startedAt, -, completedAt, -, -, -, h⟩ := h
    split at h
    · cases h
    · split at h
      · split at h
        · obtain ⟨-, rfl⟩ := Prod.mk.inj (Except.ok.inj h)
          exact hs
        · cases h
      · split at h
        · cases h
        · obtain ⟨-, rfl⟩ := Prod.mk.inj (Except.ok.inj h)
          exact hs.updateRuns fun _ => rfl

theorem deleteRunRow (hs : s.Constraints) (runId : String) :
    (s.deleteRunRow runId).Constraints where
  runIds := hs.runIds.sublist (List.filter_sublist.map _)
  sequences := hs.sequences.sublist (List.filter_sublist.map _)
  positive row hrow := hs.positive row (List.mem_of_mem_filter hrow)
  fits row hrow := hs.fits row (List.mem_of_mem_filter hrow)

/-- Every call keeps the constraints. -/
theorem call (hs : s.Constraints) (c : StoreCall ε) : (s.call codec c).2.Constraints := by
  cases c with
  | createRun run =>
    show (s.createRun run).2.Constraints
    unfold SqliteState.createRun
    split
    · exact hs
    · refine hs.transaction fun u s' h => ?_
      unfold SqliteState.insertRun at h
      split at h
      · cases h
      · split at h
        · next hinsert =>
          obtain ⟨-, rfl⟩ := Prod.mk.inj (Except.ok.inj h)
          exact hs.insertRunRow hinsert
        · cases h
  | appendEvents events =>
    show (s.appendEvents codec events).2.Constraints
    unfold SqliteState.appendEvents
    split
    · exact hs
    · dsimp only
      split
      · exact hs
      · refine hs.transaction fun u s' h => ?_
        obtain ⟨prepared, hprepared, h⟩ := bind_eq_ok.mp h
        refine hs.appendPreparedEvents (fun item hitem => ?_) h
        have hitems := mapM_eq_ok_iff.mp (liftBackend_eq_ok.mp hprepared)
        obtain ⟨e, -, he⟩ := forall₂_exists_left hitems hitem
        exact sequence_prepareEvent he
  | completeRun completion =>
    show (s.completeRun completion).2.Constraints
    unfold SqliteState.completeRun
    split
    · exact hs
    · exact hs.transaction fun u s' h => hs.completeRunRow h
  | getRun id => exact hs
  | listRuns query => exact hs
  | loadEvents id query => exact hs
  | deleteRun id => exact hs.deleteRunRow id.asStr

end SqliteState.Constraints

/-- The constraints hold after every finite sequence of calls. -/
theorem sqliteExplainabilityStore_constraints (codec : EventCodec ε) (calls : List (StoreCall ε)) :
    ((sqliteExplainabilityStore codec).run calls).Constraints :=
  Machine.invariant_run _ .new (fun _ c hs => hs.call c) calls

/-! ### The SQLite store -/

section Sqlite

variable {codec : EventCodec ε} {s : SqliteState}

theorem fromStr_eq_ok {kind value : String} {id : Identifier kind}
    (h : Identifier.fromStr kind value = .ok id) : id.asStr = value := by
  unfold Identifier.fromStr at h
  split at h
  · cases h
  · rw [← Except.ok.inj h]

theorem mapError_eq_ok {α β γ : Type} {f : β → γ} {x : Except β α} {a : α} :
    x.mapError f = .ok a ↔ x = .ok a := by
  cases x <;> simp [Except.mapError]

/-- What a row that can be read back says about its run. -/
structure RunRow.Holds (row : RunRow) (run : ExplainabilityRun) : Prop where
  runId : run.runId.asStr = row.runId
  kind : run.kind.toSqlText = row.kind
  status : run.status.toSqlText = row.status
  queryMethod : run.queryMethod.map ExplainabilityQueryMethod.toSqlText = row.queryMethod
  startedAt : datetimeToSqlText run.startedAt = row.startedAt
  canonical : run.startedAt.Canonical

variable {text : String}

theorem kind_of_fromSqlText {kind : ExplainabilityRunKind}
    (h : ExplainabilityRunKind.fromSqlText text = .ok kind) : kind.toSqlText = text := by
  unfold ExplainabilityRunKind.fromSqlText at h
  split at h <;> cases h <;> rfl

theorem status_of_fromSqlText {status : ExplainabilityRunStatus}
    (h : ExplainabilityRunStatus.fromSqlText text = .ok status) : status.toSqlText = text := by
  unfold ExplainabilityRunStatus.fromSqlText at h
  split at h <;> cases h <;> rfl

theorem queryMethod_of_fromSqlText {method : ExplainabilityQueryMethod}
    (h : ExplainabilityQueryMethod.fromSqlText text = .ok method) : method.toSqlText = text := by
  unfold ExplainabilityQueryMethod.fromSqlText at h
  split at h <;> cases h <;> rfl

theorem holds_of_runFromRow (h : runFromRow row = .ok run) : row.Holds run := by
  simp only [runFromRow, bind_eq_ok] at h
  obtain ⟨runId, hrunId, kind, hkind, status, hstatus, method, hmethod, startedAt, hstartedAt,
    completedAt, -, eventCount, -, h⟩ := h
  split at h
  · cases h
  · obtain ⟨-, -, h⟩ := bind_eq_ok.mp h
    obtain rfl := Except.ok.inj h
    obtain ⟨hcanonical, htext⟩ := DateTime.of_datetimeFromSqlText hstartedAt
    refine ⟨fromStr_eq_ok (mapError_eq_ok.mp hrunId), kind_of_fromSqlText hkind,
      status_of_fromSqlText hstatus, ?_, htext, hcanonical⟩
    cases hrow : row.queryMethod with
    | none =>
      rw [hrow] at hmethod
      obtain rfl : none = method := Except.ok.inj hmethod
      rfl
    | some text =>
      rw [hrow, Option.mapM_some] at hmethod
      obtain ⟨value, hvalue, rfl⟩ := map_eq_ok.mp hmethod
      rw [Option.map_some, queryMethod_of_fromSqlText hvalue]

/-- A row that can be read back is selected as its run is. -/
theorem matchesQueryRow_iff (h : row.Holds run) :
    SqliteState.matchesQueryRow { query with before := none } row = true ↔ query.Selects run := by
  have hmethod : ∀ method : ExplainabilityQueryMethod,
      row.queryMethod = some method.toSqlText ↔ run.queryMethod = some method := by
    intro method
    rw [← h.queryMethod]
    cases run.queryMethod <;> simp
  simp only [SqliteState.matchesQueryRow, Bool.and_eq_true, Option.all_eq_true, decide_eq_true_eq,
    ← h.kind, ← h.status, hmethod, ExplainabilityRunKind.toSqlText_inj,
    ExplainabilityRunStatus.toSqlText_inj, reduceCtorEq, false_implies, implies_true, and_true]
  constructor
  · rintro ⟨⟨hkind, hstatus⟩, hmethod⟩
    exact ⟨hkind, hstatus, hmethod⟩
  · intro h
    exact ⟨⟨h.kind, h.status⟩, h.queryMethod⟩

/-- Rows that can be read back are ordered as their runs. -/
theorem newerThan_of_holds {row other : RunRow} {run run' : ExplainabilityRun}
    (h : row.Holds run) (h' : other.Holds run') (hlt : row.historyKey < other.historyKey) :
    NewerThan run run' := by
  rw [RunRow.historyKey_lt_iff, ← h.startedAt, ← h'.startedAt, ← h.runId, ← h'.runId,
    DateTime.datetimeToSqlText_lt_iff h'.canonical h.canonical,
    DateTime.datetimeToSqlText_inj h'.canonical h.canonical] at hlt
  exact hlt

variable {ρ α : Type} {f : ρ → Except SqliteStoreBackendError α}

/-- The failures of the rows of a read are reported one by one. -/
theorem read_mapM (operation : String) (rows : List ρ) :
    SqliteState.read operation (liftBackend (rows.mapM f)) =
      rows.mapM fun row => SqliteState.read operation (liftBackend (f row)) := by
  induction rows with
  | nil => rfl
  | cons row rows ih =>
    rw [List.mapM_cons, List.mapM_cons, ← ih]
    cases f row with
    | error e => rfl
    | ok a => cases rows.mapM f <;> rfl

theorem read_eq_ok {α : Type} {operation : String} {x : Except SqliteStoreBackendError α} {a : α} :
    SqliteState.read operation (liftBackend x) = .ok a ↔ x = .ok a := by
  rw [SqliteState.read, mapError_eq_ok, liftBackend_eq_ok]

/-- Rows that can all be read back give their values. -/
theorem exists_mapM_read
    (operation : String) {rows : List ρ} (h : ∀ row ∈ rows, ∃ a, f row = .ok a) :
    ∃ items, rows.mapM (fun row => SqliteState.read operation (liftBackend (f row))) = .ok items ∧
      List.Forall₂ (fun row a => f row = .ok a) rows items := by
  induction rows with
  | nil => exact ⟨[], rfl, .nil⟩
  | cons row rows ih =>
    obtain ⟨⟨a, ha⟩, hrest⟩ := List.forall_mem_cons.mp h
    obtain ⟨items, hitems, hforall⟩ := ih hrest
    refine ⟨a :: items, ?_, .cons ha hforall⟩
    rw [List.mapM_cons, read_eq_ok.mpr ha, hitems]
    rfl

/-- One row that cannot be read back fails the read. -/
theorem mapM_read_eq_error
    (operation : String) {rows : List ρ} (h : ∃ row ∈ rows, ∀ a, f row ≠ .ok a) :
    rows.mapM (fun row => SqliteState.read operation (liftBackend (f row))) =
      .error (.internal operation) := by
  obtain ⟨bad, hbad, hunreadable⟩ := h
  cases hmap : rows.mapM fun row => SqliteState.read operation (liftBackend (f row)) with
  | ok items =>
    obtain ⟨a, -, ha⟩ := forall₂_exists_right (mapM_eq_ok_iff.mp hmap) hbad
    exact absurd (read_eq_ok.mp ha) (hunreadable a)
  | error e =>
    obtain ⟨_, row, _, _, -, -, hrow⟩ := mapM_eq_error_iff.mp hmap
    cases hf : f row with
    | ok a =>
      rw [hf] at hrow
      cases hrow
    | error e' =>
      rw [hf] at hrow
      obtain rfl : ExplainabilityStoreError.internal operation = e := Except.error.inj hrow
      rfl

/-- The rows of a listing, in the order of the listing. -/
def listedRows (s : SqliteState) (query : RunQuery) : List RunRow :=
  (s.runs.filter (SqliteState.matchesQueryRow { query with before := none })).insertionSort
    SqliteState.historyRowOrder

theorem mem_listedRows : row ∈ listedRows s query ↔ row ∈ s.runs ∧
      SqliteState.matchesQueryRow { query with before := none } row = true := by
  rw [listedRows, List.mem_insertionSort, List.mem_filter]

theorem nodup_rowKeys (hs : s.Constraints) (query : RunQuery) :
    ((s.runs.filter (SqliteState.matchesQueryRow query)).map RunRow.historyKey).Nodup := by
  refine List.Nodup.of_map (fun key => (ofLex (ofDual key)).2) ?_
  rw [List.map_map]
  exact hs.runIds.sublist (List.filter_sublist.map _)

/-- Paging through the run table reads the listed rows one by one. -/
theorem pagesRuns_sqlite (hs : s.Constraints) (hlimit : AcceptedRunLimit query.limit) :
    PagesRuns s.listRuns query ((listedRows s query).mapM fun row =>
      SqliteState.read "list explainability runs" (liftBackend (runFromRow row))) := by
  have hlist : ∀ before, s.listRuns { query with before } =
      (((s.runs.filter (SqliteState.matchesQueryRow { query with before })).insertionSort
        SqliteState.historyRowOrder).take query.limit).mapM fun row =>
          SqliteState.read "list explainability runs" (liftBackend (runFromRow row)) := by
    intro before
    rw [SqliteState.listRuns, validateLimit_of_accepted hlimit, ← read_mapM]
  refine pagesThrough_sorted historyRowOrder_iff (nodup_rowKeys hs _) hlimit.1 (hlist none)
    fun row _ run hrun => ?_
  have hholds := holds_of_runFromRow (read_eq_ok.mp hrun)
  have hbehind : s.runs.filter
      (SqliteState.matchesQueryRow { query with before := some (.behind run) }) =
      (s.runs.filter (SqliteState.matchesQueryRow { query with before := none })).filter
        fun other => row.historyKey < other.historyKey := by
    rw [List.filter_filter]
    refine List.filter_congr fun other _ => ?_
    rw [matchesQueryRow_behind query hholds.startedAt hholds.runId, Bool.and_comm]
  rw [hlist, hbehind]

/-- Paging through a run table whose selected rows can be read back. -/
theorem visitsRuns_sqlite (hs : s.Constraints) (hlimit : AcceptedRunLimit query.limit)
    (hreadable : ∀ row ∈ listedRows s query, ∃ run, runFromRow row = .ok run) :
    VisitsRuns s.listRuns (fun run => ∃ row ∈ s.runs, runFromRow row = .ok run) query := by
  obtain ⟨runs, hruns, hdecoded⟩ := exists_mapM_read "list explainability runs" hreadable
  have hpages := pagesRuns_sqlite hs hlimit
  rw [hruns] at hpages
  have hsorted := insertionSort_pairwise_lt historyRowOrder_iff
    (nodup_rowKeys hs { query with before := none })
  refine ⟨runs, hpages, ?_, fun run => ?_⟩
  · refine pairwise_of_decodes hdecoded hsorted fun row run row' run' hrow hrow' hlt => ?_
    exact newerThan_of_holds (holds_of_runFromRow hrow) (holds_of_runFromRow hrow') hlt
  · constructor
    · intro hrun
      obtain ⟨row, hmem, hrow⟩ := forall₂_exists_left hdecoded hrun
      obtain ⟨hstored, hmatch⟩ := mem_listedRows.mp hmem
      exact ⟨⟨row, hstored, hrow⟩, (matchesQueryRow_iff (holds_of_runFromRow hrow)).mp hmatch⟩
    · rintro ⟨⟨row, hstored, hrow⟩, hselects⟩
      have hmatch := (matchesQueryRow_iff (holds_of_runFromRow hrow)).mpr hselects
      obtain ⟨run', hrun', hrow'⟩ :=
        forall₂_exists_right hdecoded (mem_listedRows.mpr ⟨hstored, hmatch⟩)
      rw [hrow] at hrow'
      rwa [Except.ok.inj hrow']

/-- The rows of a run's events, in the order of a replay. -/
def replayedRows (s : SqliteState) (id : ExplainabilityRunId) : List EventRow :=
  (s.events.filter fun row => row.runId = id.asStr).insertionSort
    fun left right => left.sequence ≤ right.sequence

theorem mem_replayedRows {row : EventRow} :
    row ∈ replayedRows s id ↔ row ∈ s.events ∧ row.runId = id.asStr := by
  rw [replayedRows, List.mem_insertionSort, List.mem_filter, decide_eq_true_eq]

theorem nodup_sequences (hs : s.Constraints) (id : ExplainabilityRunId) :
    ((s.events.filter fun row => row.runId = id.asStr).map EventRow.sequence).Nodup := by
  refine List.Nodup.of_map (fun sequence => (id.asStr, sequence)) ?_
  have hkeys : ((s.events.filter fun row => row.runId = id.asStr).map EventRow.sequence).map
      (fun sequence => (id.asStr, sequence)) =
      (s.events.filter fun row => row.runId = id.asStr).map
        fun row => (row.runId, row.sequence) := by
    rw [List.map_map]
    refine List.map_congr_left fun row hrow => ?_
    have hid : row.runId = id.asStr := by simpa using (List.mem_filter.mp hrow).2
    rw [Function.comp_apply, hid]
  rw [hkeys]
  exact hs.sequences.sublist (List.filter_sublist.map _)

/-- Paging through the events of a run reads its rows one by one. -/
theorem pagesEvents_sqlite (hs : s.Constraints)
    (hrun : s.runExists id.asStr = true) (hlimit : AcceptedEventLimit limit) :
    PagesEvents (s.loadEvents codec id) limit ((replayedRows s id).mapM fun row =>
      SqliteState.read "load explainability events" (liftBackend (envelopeFromRow codec row))) := by
  have hload : ∀ afterSequence, afterSequence.getD 0 ≤ i64Max →
      s.loadEvents codec id { afterSequence, limit } =
        (s.eventRows id.asStr (afterSequence.getD 0 : ℕ) limit).mapM fun row =>
          SqliteState.read "load explainability events"
            (liftBackend (envelopeFromRow codec row)) := by
    intro afterSequence hafter
    rw [SqliteState.loadEvents, validateLimit_of_accepted hlimit, ← read_mapM]
    simp only [hrun, hafter, ↓reduceIte]
  have hrows : ∀ after : ℤ,
      (s.events.filter fun row => row.runId = id.asStr ∧ after < row.sequence) =
        (s.events.filter fun row => row.runId = id.asStr).filter fun row => after < row.sequence := by
    intro after
    rw [List.filter_filter]
    exact List.filter_congr fun row _ => by rw [Bool.decide_and, Bool.and_comm]
  have horder : ∀ a b : EventRow, a.sequence ≤ b.sequence ↔ a.sequence ≤ b.sequence :=
    fun _ _ => Iff.rfl
  refine pagesThrough_sorted horder (nodup_sequences hs id) hlimit.1 ?_ fun row hrow e he => ?_
  · have hall : ((s.events.filter fun row => row.runId = id.asStr).filter
        fun row => (0 : ℤ) < row.sequence) = s.events.filter fun row => row.runId = id.asStr := by
      refine List.filter_eq_self.mpr fun row hrow => ?_
      simpa using hs.positive row (List.mem_of_mem_filter hrow)
    rw [hload none (Nat.zero_le _), SqliteState.eventRows, hrows, Option.getD_none, Nat.cast_zero,
      hall]
  · have hsequence := sequence_of_envelopeFromRow (read_eq_ok.mp he)
    have hfits := hs.fits row (List.mem_of_mem_filter hrow)
    rw [hload (some e.sequence) (by rw [Option.getD_some]; omega), SqliteState.eventRows, hrows,
      Option.getD_some, ← hsequence]

/-- Paging through the events of a run whose rows can be read back. -/
theorem visitsEvents_sqlite (hs : s.Constraints)
    (hrun : s.runExists id.asStr = true) (hlimit : AcceptedEventLimit limit)
    (hreadable : ∀ row ∈ replayedRows s id, ∃ e, envelopeFromRow codec row = .ok e) :
    VisitsEvents (s.loadEvents codec id)
      (fun e => ∃ row ∈ s.events, row.runId = id.asStr ∧ envelopeFromRow codec row = .ok e)
      limit := by
  obtain ⟨events, hevents, hdecoded⟩ := exists_mapM_read "load explainability events" hreadable
  have hpages : PagesEvents (s.loadEvents codec id) limit _ := pagesEvents_sqlite hs hrun hlimit
  rw [hevents] at hpages
  have hsorted : (replayedRows s id).Pairwise fun a b => a.sequence < b.sequence :=
    insertionSort_pairwise_lt (fun _ _ => Iff.rfl) (nodup_sequences hs id)
  refine ⟨events, hpages, ?_, fun e => ?_⟩
  · refine pairwise_of_decodes hdecoded hsorted fun row e row' e' hrow hrow' hlt => ?_
    have := sequence_of_envelopeFromRow hrow
    have := sequence_of_envelopeFromRow hrow'
    omega
  · constructor
    · intro he
      obtain ⟨row, hmem, hrow⟩ := forall₂_exists_left hdecoded he
      obtain ⟨hstored, hid⟩ := mem_replayedRows.mp hmem
      exact ⟨row, hstored, hid, hrow⟩
    · rintro ⟨row, hstored, hid, hrow⟩
      obtain ⟨e', he', hrow'⟩ :=
        forall₂_exists_right hdecoded (mem_replayedRows.mpr ⟨hstored, hid⟩)
      rw [hrow] at hrow'
      rwa [Except.ok.inj hrow']

end Sqlite

/-- **Paging is complete and free of duplicates.** In memory, after any calls, paging visits every
selected run and every event of a stored run.  In SQLite, for any table contents, it does so when
the rows it selects can be read back, and otherwise ends with the internal error of the read. -/
theorem paging_visits_all (codec : EventCodec ε) :
    (∀ calls, let m := (inMemoryExplainabilityStore ε).run calls
      (∀ query : RunQuery, AcceptedRunLimit query.limit →
        VisitsRuns m.listRuns (fun run => m.run run.runId = some run) query) ∧
      ∀ id limit, AcceptedEventLimit limit → (m.run id).isSome = true →
        VisitsEvents (m.loadEvents id) (fun e => e ∈ m.eventsOf id) limit) ∧
    (∀ calls, ((sqliteExplainabilityStore codec).run calls).Constraints) ∧
    ∀ s : SqliteState, s.Constraints →
      (∀ query : RunQuery, AcceptedRunLimit query.limit →
        ((∀ row ∈ listedRows s query, ∃ run, runFromRow row = .ok run) →
          VisitsRuns s.listRuns (fun run => ∃ row ∈ s.runs, runFromRow row = .ok run) query) ∧
        ((∃ row ∈ listedRows s query, ∀ run, runFromRow row ≠ .ok run) →
          PagesRuns s.listRuns query (.error (.internal "list explainability runs")))) ∧
      ∀ id limit, AcceptedEventLimit limit → s.runExists id.asStr = true →
        ((∀ row ∈ replayedRows s id, ∃ e, envelopeFromRow codec row = .ok e) →
          VisitsEvents (s.loadEvents codec id)
            (fun e => ∃ row ∈ s.events, row.runId = id.asStr ∧ envelopeFromRow codec row = .ok e)
            limit) ∧
        ((∃ row ∈ replayedRows s id, ∀ e, envelopeFromRow codec row ≠ .ok e) →
          PagesEvents (s.loadEvents codec id) limit
            (.error (.internal "load explainability events"))) := by
  refine ⟨fun calls => ?_, sqliteExplainabilityStore_constraints codec, fun s hs => ⟨?_, ?_⟩⟩
  · have hm := inMemoryExplainabilityStore_contract (ε := ε) calls
    exact ⟨fun query hlimit => visitsRuns_memory hm hlimit,
      fun id limit hlimit hrun => visitsEvents_memory hm hrun hlimit⟩
  · intro query hlimit
    refine ⟨visitsRuns_sqlite hs hlimit, fun hbad => ?_⟩
    rw [← mapM_read_eq_error "list explainability runs" hbad]
    exact pagesRuns_sqlite hs hlimit
  · intro id limit hlimit hrun
    refine ⟨visitsEvents_sqlite hs hrun hlimit, fun hbad => ?_⟩
    rw [← mapM_read_eq_error "load explainability events" hbad]
    exact pagesEvents_sqlite hs hrun hlimit

/-- Three runs that start at one time, the second of them with the least identifier. -/
def tiedRuns : List ExplainabilityRun :=
  [{ sampleRun leapSecond with runId := ⟨"run-3", by decide⟩ }, sampleRun leapSecond,
    { sampleRun leapSecond with runId := ⟨"run-4", by decide⟩ }]

/-- The runs are on two pages. -/
theorem paging_visits_all_sample :
    let s := (sqliteExplainabilityStore queryStartedCodec).run (tiedRuns.map .createRun)
    s.runs = tiedRuns.map encodeRun ∧
      VisitsRuns s.listRuns (fun run => ∃ row ∈ s.runs, runFromRow row = .ok run)
        ⟨none, none, none, none, 2⟩ := by
  have hruns : ((sqliteExplainabilityStore queryStartedCodec).run
      (tiedRuns.map .createRun)).runs = tiedRuns.map encodeRun := by
    decide
  refine ⟨hruns, ?_⟩
  obtain ⟨-, hconstraints, hsqlite⟩ := paging_visits_all queryStartedCodec
  refine ((hsqlite _ (hconstraints (tiedRuns.map .createRun))).1 ⟨none, none, none, none, 2⟩
    ⟨by decide, by decide⟩).1 fun row hrow => ?_
  have hmem := (mem_listedRows.mp hrow).1
  rw [hruns] at hmem
  have hread : ∀ row ∈ tiedRuns.map encodeRun, (runFromRow row).toBool := by decide
  have hok := hread row hmem
  cases hrun : runFromRow row with
  | error error =>
    rw [hrun] at hok
    cases hok
  | ok run => exact ⟨run, rfl⟩

/-- Two rows of which the newer one has a start without a fraction of a second. -/
def fractionlessState : SqliteState where
  runs := [newRunRow (sampleRun leapSecond),
    { newRunRow (sampleRun leapSecond) with
      runId := "run-2"
      startedAt := "2026-08-07T12:34:56Z" }]
  events := []

/-- A row that cannot be read back ends the paging before the runs behind it are visited. -/
theorem fractionlessState_unvisited :
    ¬ ∀ s : SqliteState, s.Constraints → ∀ query : RunQuery, AcceptedRunLimit query.limit →
      VisitsRuns s.listRuns (fun run => ∃ row ∈ s.runs, runFromRow row = .ok run) query := by
  intro h
  have hconstraints : fractionlessState.Constraints := by
    constructor <;> simp [fractionlessState, newRunRow, sampleRun]
  have hlimit : AcceptedRunLimit 200 := ⟨by decide, by decide⟩
  obtain ⟨runs, hpages, -⟩ :=
    h fractionlessState hconstraints ⟨none, none, none, none, 200⟩ hlimit
  have hpaged := (hpages (.ok runs)).mpr rfl
  have hfails : fractionlessState.listRuns ⟨none, none, none, none, 200⟩ =
      .error (.internal "list explainability runs") := by
    decide
  have hresult := (paged_of_error hfails).mp hpaged
  cases hresult

end GraphLoom.Explainability
