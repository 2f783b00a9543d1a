import GraphLoom.Communities.Equiv.Reports
import GraphLoom.Communities.Extraction
import GraphLoom.Foundation.TryBuffered

/-!
# Reports do not depend on timing

A state of the loop is described by the levels that are finished, the level that is running and
which of its calls are done (`Underway`).  At the end of a level its entries are all there, in some
order, and sorting them gives the reports in the order of the tasks (`ReportsState.Holds.step`).  So
every run returns what `createCommunityReports` gives, which makes one call after another
(`runs_returned`), and every run returns (`exists_reportsStep`, `run_length_le`).

The reports are then those of the calls that parsed, from the highest level down and in the order of
the communities (`createCommunityReports_timing`).
-/

namespace GraphLoom.Communities

open Foundation Llm Prompts ReportCalls

/-! ### One level after another -/

variable {outcome : Except GraphLoomError (List CommunityReportRow)}

section Runs

variable {extract : ReportTask → Except GraphLoomError (Except String CommunityReportRow)}
  {limit total : ℕ} {levels : List (List ReportTask)} {s t : ReportsState}
  {label : Option ReportTask}

/-- The report of a task, if it has one. -/
def reportOfTask (extract : ReportTask → Except GraphLoomError (Except String CommunityReportRow))
    (task : ReportTask) : Except GraphLoomError (Option CommunityReportRow) :=
  (extract task).map Except.toOption

/-- The entry holds the report of the task under its index. -/
def IsEntryOf (extract : ReportTask → Except GraphLoomError (Except String CommunityReportRow))
    (task : ReportTask) (entry : ℕ × Option CommunityReportRow) : Prop :=
  entry.1 = task.index ∧ reportOfTask extract task = .ok entry.2

/-- The tasks of each level stand in the order of their indices. -/
def Indexed (levels : List (List ReportTask)) : Prop :=
  ∀ tasks ∈ levels, tasks.Pairwise fun a b => a.index < b.index

/-- A run is at the level `current`, of which the calls `done` are completed. -/
structure Underway (extract : ReportTask → Except GraphLoomError (Except String CommunityReportRow))
    (levels : List (List ReportTask)) (s : ReportsState) (finished : List (List ReportTask))
    (results : List (List (Option CommunityReportRow))) (current done : List ReportTask) : Prop where
  levels : levels = finished ++ current :: s.remaining
  finished : List.Forall₂ (fun tasks rows => tasks.mapM (reportOfTask extract) = .ok rows) finished
    results
  reports : s.reports = results.flatten.reduceOption
  pending : current.Perm (done ++ s.stream.pending)
  completed : List.Forall₂ (IsEntryOf extract) done s.completedLevel

/-- What a run over the levels may return. -/
def Returns (extract : ReportTask → Except GraphLoomError (Except String CommunityReportRow))
    (levels : List (List ReportTask)) :
    Except GraphLoomError (List CommunityReportRow) → Prop
  | .ok reports => ∃ results,
    levels.mapM (fun tasks => tasks.mapM (reportOfTask extract)) = .ok results ∧
      reports = results.flatten.reduceOption
  | .error error => ∃ tasks ∈ levels, ∃ task ∈ tasks, extract task = .error error

/-- What holds in every state of a run. -/
structure ReportsState.Holds
    (extract : ReportTask → Except GraphLoomError (Except String CommunityReportRow))
    (levels : List (List ReportTask)) (s : ReportsState) : Prop where
  underway : s.returned = none →
    ∃ finished results current done, Underway extract levels s finished results current done
  returned : ∀ outcome, s.returned = some outcome → Returns extract levels outcome

/-- **The entries of a level, in any order, sort to the reports of its tasks.** -/
theorem Underway.collect {finished : List (List ReportTask)}
    {results : List (List (Option CommunityReportRow))} {current done : List ReportTask}
    (hindexed : Indexed levels) (h : Underway extract levels s finished results current done)
    (hdrained : s.stream.Drained) :
    ∃ rows, current.mapM (reportOfTask extract) = .ok rows ∧
      s.collected = (results ++ [rows]).flatten.reduceOption := by
  have hpending : s.stream.pending = [] := by
    rw [Buffer.pending, hdrained.1, hdrained.2, List.append_nil]
  have hdone : current.Perm done := by
    have hperm := h.pending
    rwa [hpending, List.append_nil] at hperm
  have hcurrent : current ∈ levels := by
    rw [h.levels]
    exact List.mem_append_right _ (List.mem_cons_self ..)
  have hsorted := forall₂_sort_of_results (fun task entry hentry => hentry.1)
    (hindexed current hcurrent) hdone h.completed
  refine ⟨(s.completedLevel.insertionSort fun a b => a.1 ≤ b.1).map Prod.snd, ?_, ?_⟩
  · rw [mapM_eq_ok_iff, List.forall₂_map_right_iff]
    exact hsorted.imp fun task entry hentry => hentry.2
  · unfold ReportsState.collected
    rw [h.reports, List.flatten_append, List.flatten_singleton, List.reduceOption_append]

theorem Underway.task_mem {finished : List (List ReportTask)}
    {results : List (List (Option CommunityReportRow))} {current done : List ReportTask}
    (h : Underway extract levels s finished results current done) {task : ReportTask}
    (hmem : task ∈ s.stream.pending) : current ∈ levels ∧ task ∈ current := by
  constructor
  · rw [h.levels]
    exact List.mem_append_right _ (List.mem_cons_self ..)
  · exact h.pending.mem_iff.mpr (List.mem_append_right _ hmem)

theorem ReportsState.Holds.step (hindexed : Indexed levels) (h : s.Holds extract levels)
    (hstep : ReportsStep extract limit total s label t) : t.Holds extract levels := by
  cases hstep with
  | start waits poll =>
    obtain ⟨finished, results, current, done, hs⟩ := h.underway waits
    constructor
    · intro _
      exact ⟨finished, results, current, done,
        { hs with pending := hs.pending.trans (poll.pending_perm.append_left done) }⟩
    · exact h.returned
  | @completed stream task result waits poll ends =>
    obtain ⟨finished, results, current, done, hs⟩ := h.underway waits
    have hentry : IsEntryOf extract task (task.index, result.toOption) := by
      refine ⟨rfl, ?_⟩
      unfold reportOfTask
      rw [ends]
      rfl
    constructor
    · intro _
      refine ⟨finished, results, current, done ++ [task], hs.levels, hs.finished, hs.reports, ?_,
        List.rel_append hs.completed (.cons hentry .nil)⟩
      rw [List.append_assoc]
      exact hs.pending.trans (poll.pending_perm.append_left done)
    · intro _ hreturned
      exact absurd (waits.symm.trans hreturned) (Option.some_ne_none _).symm
  | @failed stream task error waits poll ends =>
    obtain ⟨finished, results, current, done, hs⟩ := h.underway waits
    have hmem : task ∈ s.stream.pending :=
      poll.pending_perm.mem_iff.mpr (List.mem_cons_self ..)
    constructor
    · intro hreturned
      cases hreturned
    · intro outcome hreturned
      obtain rfl := Option.some.inj hreturned
      exact ⟨current, (hs.task_mem hmem).1, task, (hs.task_mem hmem).2, ends⟩
  | @level tasks remaining waits drained next =>
    obtain ⟨finished, results, current, done, hs⟩ := h.underway waits
    obtain ⟨rows, hrows, hcollected⟩ := hs.collect hindexed drained
    constructor
    · intro _
      refine ⟨finished ++ [current], results ++ [rows], tasks, [], ?_,
        List.rel_append hs.finished (.cons hrows .nil), hcollected, ?_, .nil⟩
      · rw [hs.levels, next, List.append_assoc]
        rfl
      · show tasks.Perm ([] ++ (tasks ++ []))
        rw [List.nil_append, List.append_nil]
    · exact h.returned
  | finished waits drained last =>
    obtain ⟨finished, results, current, done, hs⟩ := h.underway waits
    obtain ⟨rows, hrows, hcollected⟩ := hs.collect hindexed drained
    constructor
    · intro hreturned
      cases hreturned
    · intro outcome hreturned
      obtain rfl := Option.some.inj hreturned
      refine ⟨results ++ [rows], ?_, hcollected⟩
      rw [hs.levels, last, mapM_eq_ok_iff]
      exact List.rel_append hs.finished (.cons hrows .nil)

/-- A run begins behind an empty level. -/
theorem ReportsState.Holds.start (extract : ReportTask → Except GraphLoomError (Except String
    CommunityReportRow)) (levels : List (List ReportTask)) :
    (ReportsState.start levels).Holds extract ([] :: levels) := by
  constructor
  · intro _
    exact ⟨[], [], [], [], rfl, .nil, rfl, .refl _, .nil⟩
  · intro _ hreturned
    cases hreturned

theorem returns_nil_cons
    (h : Returns extract ([] :: levels) outcome) : Returns extract levels outcome := by
  cases outcome with
  | error error =>
    obtain ⟨tasks, htasks, task, htask, herror⟩ := h
    rcases List.mem_cons.mp htasks with rfl | htasks
    · exact absurd htask List.not_mem_nil
    · exact ⟨tasks, htasks, task, htask, herror⟩
  | ok reports =>
    obtain ⟨results, hresults, hreports⟩ := h
    rw [mapM_eq_ok_iff] at hresults
    obtain ⟨rows, rest, hrows, hrest, rfl⟩ := List.forall₂_cons_left_iff.mp hresults
    obtain rfl := Except.ok.inj hrows
    exact ⟨rest, mapM_eq_ok_iff.mpr hrest, hreports⟩

/-! ### Every run returns -/

/-- What a run has left to do: a start and a completion for each call, the begin of each level and
the return. -/
def ReportsState.work (s : ReportsState) : ℕ :=
  if s.returned.isSome then 0
  else 1 + s.stream.work + 2 * s.remaining.flatten.length + s.remaining.length

theorem ReportsStep.work_lt (h : ReportsStep extract limit total s label t) : t.work < s.work := by
  unfold ReportsState.work
  cases h with
  | start waits poll =>
    have hlt := poll.work_lt
    rw [waits]
    simp only [Option.isSome_none, Bool.false_eq_true, if_false]
    omega
  | completed waits poll ends =>
    have hlt := poll.work_lt
    unfold ReportsState.record
    dsimp only
    rw [waits]
    simp only [Option.isSome_none, Bool.false_eq_true, if_false]
    omega
  | failed waits poll ends =>
    rw [waits]
    simp only [Option.isSome_none, Option.isSome_some, Bool.false_eq_true, if_false, if_true]
    omega
  | level waits drained next =>
    rw [next, waits]
    simp only [Option.isSome_none, Bool.false_eq_true, if_false, Buffer.work, Buffer.full,
      List.flatten_cons, List.length_append, List.length_cons, List.length_nil]
    omega
  | finished waits drained last =>
    rw [waits]
    simp only [Option.isSome_none, Option.isSome_some, Bool.false_eq_true, if_false, if_true]
    omega

/-- **A run that has not returned can go on.** -/
theorem exists_reportsStep (hlimit : 0 < limit) (h : s.returned = none) :
    ∃ label t, ReportsStep extract limit total s label t := by
  by_cases hdrained : s.stream.Drained
  · cases hremaining : s.remaining with
    | nil => exact ⟨none, _, .finished h hdrained hremaining⟩
    | cons tasks remaining => exact ⟨none, _, .level h hdrained hremaining⟩
  · obtain ⟨label, stream, hpoll⟩ := Buffer.exists_poll hlimit hdrained
    cases label with
    | none => exact ⟨none, _, .start h hpoll⟩
    | some task =>
      cases hends : extract task with
      | ok result => exact ⟨some task, _, .completed h hpoll hends⟩
      | error error => exact ⟨some task, _, .failed h hpoll hends⟩

end Runs

/-! ### One call after another -/

variable {γ : Type} {tera : Tera} {calls : ReportCalls γ tera} {communities : List CommunityInputRow}

theorem reportOfTask_eq (calls : ReportCalls γ tera) (task : ReportTask) :
    reportOfTask calls.extractReport task =
      extractReportForCommunity calls.tools task.context task.community := by
  unfold reportOfTask extractReport extractReportForCommunity
  show _ = (calls.requestReport task.community task.context).map Except.toOption >>= _
  cases calls.requestReport task.community task.context with
  | error error => rfl
  | ok answer =>
    cases answer with
    | error warning => rfl
    | ok report =>
      show ((materializeReport calls.tools task.community report).map Except.ok).map Except.toOption =
        some <$> materializeReport calls.tools task.community report
      cases materializeReport calls.tools task.community report <;> rfl

theorem levelTasks_indexed (contexts : ℤ → String) (levels : List (List CommunityInputRow)) :
    Indexed (levels.map (levelTasks contexts)) := by
  intro tasks htasks
  obtain ⟨rows, -, rfl⟩ := List.mem_map.mp htasks
  unfold levelTasks
  rw [List.pairwise_map]
  exact zipIdx_pairwise_lt rows 0

theorem mapM_levelTasks (calls : ReportCalls γ tera) (contexts : ℤ → String)
    (rows : List CommunityInputRow) :
    (levelTasks contexts rows).mapM (reportOfTask calls.extractReport) =
      rows.mapM fun community =>
        extractReportForCommunity calls.tools (contexts community.community) community := by
  unfold levelTasks
  rw [List.mapM_map]
  conv_rhs => rw [← List.zipIdx_map_fst 0 rows, List.mapM_map]
  congr 1
  funext row
  exact reportOfTask_eq calls _

variable {reports : List CommunityReportRow}

/-- **The reports of one call after another**, level by level. -/
theorem createCommunityReports_eq_ok_iff :
    createCommunityReports calls.tools communities = .ok reports ↔
      ∃ levels, calls.taskLevels communities = .ok levels ∧
        Returns calls.extractReport levels (.ok reports) := by
  have hmapM : ∀ contexts : ℤ → String,
      ((communityLevels communities).map (levelTasks contexts)).mapM
        (fun tasks => tasks.mapM (reportOfTask calls.extractReport)) =
      (communityLevels communities).mapM fun rows => rows.mapM fun community =>
        extractReportForCommunity calls.tools (contexts community.community) community := by
    intro contexts
    rw [List.mapM_map]
    congr 1
    funext rows
    exact mapM_levelTasks calls contexts rows
  constructor
  · intro h
    obtain ⟨contexts, hcontexts, h⟩ := bind_eq_ok.mp h
    obtain ⟨results, hresults, h⟩ := bind_eq_ok.mp h
    refine ⟨_, bind_eq_ok.mpr ⟨contexts, hcontexts, rfl⟩, results, ?_, ?_⟩
    · rw [hmapM]
      exact hresults
    · exact (Except.ok.inj h).symm
  · rintro ⟨levels, hlevels, results, hresults, rfl⟩
    obtain ⟨contexts, hcontexts, h⟩ := bind_eq_ok.mp hlevels
    obtain rfl := Except.ok.inj h
    rw [hmapM] at hresults
    exact bind_eq_ok.mpr ⟨contexts, hcontexts,
      bind_eq_ok.mpr ⟨results, hresults, rfl⟩⟩

variable {concurrency : ℕ} {s : ReportsState}

/-- What a run returns, or why it has not begun. -/
theorem runs_returns (h : (calls.runs concurrency communities).Reachable s)
    (hreturned : s.returned = some outcome) :
    (∃ levels, calls.taskLevels communities = .ok levels ∧
      Returns calls.extractReport levels outcome) ∨
    ∃ error, calls.taskLevels communities = .error error ∧ outcome = .error error := by
  cases hlevels : calls.taskLevels communities with
  | error error =>
    have hs : s.returned = some (.error error) := by
      refine System.Reachable.invariant (P := fun s => s.returned = some (.error error))
        (fun s hs => ?_) (fun s a t _ hs hstep => ?_) h
      · rw [show s = _ from hs, hlevels]
        rfl
      · cases hstep with
        | start waits _ => rw [waits] at hs; cases hs
        | completed waits _ _ => rw [waits] at hs; cases hs
        | failed waits _ _ => rw [waits] at hs; cases hs
        | level waits _ _ => rw [waits] at hs; cases hs
        | finished waits _ _ => rw [waits] at hs; cases hs
    exact .inr ⟨error, rfl, Option.some.inj (hreturned.symm.trans hs)⟩
  | ok levels =>
    have hindexed : Indexed ([] :: levels) := by
      obtain ⟨contexts, -, hmap⟩ := bind_eq_ok.mp hlevels
      obtain rfl := Except.ok.inj hmap
      intro tasks htasks
      rcases List.mem_cons.mp htasks with rfl | htasks
      · exact .nil
      · exact levelTasks_indexed _ _ tasks htasks
    have hs : s.Holds calls.extractReport ([] :: levels) := by
      refine System.Reachable.invariant (fun s hs => ?_)
        (fun s a t _ hs hstep => hs.step hindexed hstep) h
      rw [show s = _ from hs, hlevels]
      exact .start _ _
    exact .inl ⟨levels, rfl, returns_nil_cons (hs.returned outcome hreturned)⟩

/-- **Every run returns what one call after another gives.** -/
theorem runs_returned (h : (calls.runs concurrency communities).Reachable s)
    (hreturned : s.returned = some outcome) (reports : List CommunityReportRow) :
    outcome = .ok reports ↔ createCommunityReports calls.tools communities = .ok reports := by
  rw [createCommunityReports_eq_ok_iff]
  rcases runs_returns h hreturned with ⟨levels, hlevels, hreturns⟩ | ⟨error, hlevels, rfl⟩
  · constructor
    · rintro rfl
      exact ⟨levels, hlevels, hreturns⟩
    · rintro ⟨levels', hlevels', results, hresults, rfl⟩
      obtain rfl := Except.ok.inj (hlevels.symm.trans hlevels')
      cases outcome with
      | ok reports' =>
        obtain ⟨results', hresults', rfl⟩ := hreturns
        rw [Except.ok.inj (hresults'.symm.trans hresults)]
      | error error =>
        -- a task that fails has no result
        obtain ⟨tasks, htasks, task, htask, herror⟩ := hreturns
        obtain ⟨rows, -, hrows⟩ := forall₂_exists_right (mapM_eq_ok_iff.mp hresults) htasks
        obtain ⟨row, -, hrow⟩ := forall₂_exists_right (mapM_eq_ok_iff.mp hrows) htask
        unfold reportOfTask at hrow
        rw [herror] at hrow
        cases hrow
  · constructor
    · intro hok
      cases hok
    · rintro ⟨levels, hlevels', -⟩
      cases hlevels.symm.trans hlevels'

/-! ### The order of the reports -/

/-- The higher level first, and in a level the lower community. -/
def InReportOrder (a b : CommunityInputRow) : Prop :=
  b.level < a.level ∨ (a.level = b.level ∧ a.community ≤ b.community)

theorem communityLevels_perm (communities : List CommunityInputRow) :
    (communityLevels communities).flatten.Perm communities := by
  have hsort : ∀ groups : List (ℤ × List CommunityInputRow),
      (groups.map fun level => level.2.mergeSort fun a b => a.community ≤ b.community).flatten.Perm
        (groups.flatMap Prod.snd) := by
    intro groups
    induction groups with
    | nil => exact .refl _
    | cons group groups ih =>
      rw [List.map_cons, List.flatten_cons, List.flatMap_cons]
      exact (List.mergeSort_perm _ _).append ih
  unfold communityLevels
  exact ((List.reverse_perm _).flatten.trans (hsort _)).trans (groupBy_rows_perm _ _)

theorem communityLevels_ordered (communities : List CommunityInputRow) :
    (communityLevels communities).flatten.Pairwise InReportOrder := by
  -- the rows of a group have its level
  have hlevel : ∀ group ∈ groupBy CommunityInputRow.level communities, ∀ row ∈ group.2,
      row.level = group.1 := by
    rintro ⟨level, rows⟩ hgroup row hrow
    obtain ⟨rfl, -⟩ := (mem_groupBy_iff _ _).mp hgroup
    exact of_decide_eq_true (List.mem_filter.mp hrow).2
  unfold communityLevels
  rw [List.pairwise_flatten, ← List.map_reverse]
  constructor
  · intro rows hrows
    obtain ⟨group, hgroup, rfl⟩ := List.mem_map.mp hrows
    rw [List.mem_reverse] at hgroup
    have hsorted : (group.2.mergeSort fun a b => a.community ≤ b.community).Pairwise
        fun a b => decide (a.community ≤ b.community) = true := by
      apply List.pairwise_mergeSort
      · intro a b c hab hbc
        exact decide_eq_true (le_trans (of_decide_eq_true hab) (of_decide_eq_true hbc))
      · intro a b
        rw [Bool.or_eq_true, decide_eq_true_eq, decide_eq_true_eq]
        exact le_total a.community b.community
    refine hsorted.imp_of_mem ?_
    intro a b ha hb hab
    rw [List.mem_mergeSort] at ha hb
    exact .inr ⟨(hlevel group hgroup a ha).trans (hlevel group hgroup b hb).symm,
      of_decide_eq_true hab⟩
  · rw [List.pairwise_map, List.pairwise_reverse]
    refine (groupBy_sorted CommunityInputRow.level communities).imp_of_mem ?_
    intro low high hlow hhigh hlt a ha b hb
    rw [List.mem_mergeSort] at ha hb
    left
    rw [hlevel high hhigh a ha, hlevel low hlow b hb]
    exact hlt

/-! ### Reports and their communities -/

/-- The report that the call for a community ends with, if its answer parses. -/
def ReportCalls.parsedReport (calls : ReportCalls γ tera) (contexts : ℤ → String)
    (community : CommunityInputRow) : Option CommunityReport :=
  match calls.requestReport community (contexts community.community) with
  | .ok (.ok report) => some report
  | _ => none

/-- The row of the report, if there is one. -/
def ReportCalls.reportRow (calls : ReportCalls γ tera) (contexts : ℤ → String)
    (community : CommunityInputRow) : Option CommunityReportRow :=
  (calls.parsedReport contexts community).bind fun report =>
    (materializeReport calls.tools community report).toOption

/-- A row has the data of its community and of its report. -/
structure Attached (community : CommunityInputRow) (report : CommunityReport)
    (row : CommunityReportRow) : Prop where
  humanReadableId : row.humanReadableId = community.community
  level : row.level = community.level
  parent : row.parent = community.parent
  children : row.children = community.children
  period : row.period = community.period
  size : row.size = community.size
  title : row.title = report.title
  summary : row.summary = report.summary
  fullContent : row.fullContent = fullContent report
  rank : row.rank = report.rating
  ratingExplanation : row.ratingExplanation = report.ratingExplanation
  findings : row.findings = report.findings
  community : row.community = community.community

variable {community : CommunityInputRow}

theorem materializeReport_attached {tools : ReportTools}
    {report : CommunityReport} {row : CommunityReportRow}
    (h : materializeReport tools community report = .ok row) : Attached community report row := by
  obtain ⟨json, -, hrow⟩ := bind_eq_ok.mp h
  obtain rfl := Except.ok.inj hrow
  constructor <;> rfl

variable {contexts : ℤ → String}

theorem reportRow_of_extract
    {row : Option CommunityReportRow} (h : extractReportForCommunity calls.tools
      (contexts community.community) community = .ok row) :
    row = calls.reportRow contexts community ∧
      row.isSome = (calls.parsedReport contexts community).isSome := by
  unfold reportRow parsedReport
  obtain ⟨answer, hanswer, h⟩ := bind_eq_ok.mp h
  obtain ⟨result, hresult, rfl⟩ := map_eq_ok.mp hanswer
  rw [hresult]
  cases result with
  | error warning =>
    obtain rfl := Except.ok.inj h
    exact ⟨rfl, rfl⟩
  | ok report =>
    obtain ⟨row, hrow, rfl⟩ := map_eq_ok.mp h
    show some row = (materializeReport calls.tools community report).toOption ∧ _
    rw [hrow]
    exact ⟨rfl, rfl⟩

/-- The reports, in the order of the communities, are those whose calls parsed. -/
theorem createCommunityReports_rows (hcontexts : calls.localContexts communities = .ok contexts)
    (h : createCommunityReports calls.tools communities = .ok reports) :
    reports = (communityLevels communities).flatten.filterMap (calls.reportRow contexts) ∧
      ∀ community ∈ communities, (calls.reportRow contexts community).isSome =
        (calls.parsedReport contexts community).isSome := by
  obtain ⟨contexts', hcontexts', h⟩ := bind_eq_ok.mp h
  obtain rfl := Except.ok.inj (hcontexts.symm.trans hcontexts')
  obtain ⟨results, hresults, h⟩ := bind_eq_ok.mp h
  obtain rfl := Except.ok.inj h
  have hlevels : List.Forall₂ (List.Forall₂ fun community row =>
      row = calls.reportRow contexts community ∧
        row.isSome = (calls.parsedReport contexts community).isSome)
      (communityLevels communities) results :=
    (mapM_eq_ok_iff.mp hresults).imp fun rows row hrow =>
      (mapM_eq_ok_iff.mp hrow).imp fun community row hrow =>
        reportRow_of_extract hrow
  have hall := List.rel_flatten hlevels
  constructor
  · have heq : List.Forall₂ (fun row row' => row = row')
        ((communityLevels communities).flatten.map (calls.reportRow contexts)) results.flatten := by
      rw [List.forall₂_map_left_iff]
      exact hall.imp fun community row hrow => hrow.1.symm
    rw [List.forall₂_eq_eq_eq] at heq
    rw [← heq, List.reduceOption, List.filterMap_map]
    rfl
  · intro community hcommunity
    obtain ⟨row, -, hrow, hparsed⟩ := forall₂_exists_right hall
      ((communityLevels_perm communities).mem_iff.mpr hcommunity)
    rw [← hrow, hparsed]

/-- A row that is there has the data of its community. -/
theorem reportRow_attached
    {row : CommunityReportRow} (h : calls.reportRow contexts community = some row) :
    ∃ report, calls.parsedReport contexts community = some report ∧
      Attached community report row := by
  obtain ⟨report, hreport, hrow⟩ := Option.bind_eq_some_iff.mp h
  cases hmaterialize : materializeReport calls.tools community report with
  | error error =>
    rw [hmaterialize] at hrow
    cases hrow
  | ok row' =>
    rw [hmaterialize] at hrow
    obtain rfl := Option.some.inj hrow
    exact ⟨report, hreport, materializeReport_attached hmaterialize⟩

/-- The reports stand in the order of their communities: one for each community whose call parsed,
with the data of that community, and none for the others. -/
def ReportsOf (calls : ReportCalls γ tera) (communities : List CommunityInputRow)
    (reports : List CommunityReportRow) : Prop :=
  ∃ (contexts : ℤ → String) (order : List CommunityInputRow),
    calls.localContexts communities = .ok contexts ∧ order.Perm communities ∧
    order.Pairwise InReportOrder ∧
    List.Forall₂
      (fun community row => ∃ report, calls.parsedReport contexts community = some report ∧
        Attached community report row)
      (order.filter fun community => (calls.parsedReport contexts community).isSome) reports

theorem createCommunityReports_reportsOf
    (h : createCommunityReports calls.tools communities = .ok reports) :
    ReportsOf calls communities reports := by
  obtain ⟨contexts, hcontexts, -⟩ := bind_eq_ok.mp h
  obtain ⟨hrows, hparsed⟩ := createCommunityReports_rows hcontexts h
  refine ⟨contexts, (communityLevels communities).flatten, hcontexts, communityLevels_perm _,
    communityLevels_ordered _, ?_⟩
  have hcorresponds : List.Forall₂ (fun community row => row = calls.reportRow contexts community ∧
      row.isSome = (calls.parsedReport contexts community).isSome)
      (communityLevels communities).flatten
      ((communityLevels communities).flatten.map (calls.reportRow contexts)) := by
    rw [List.forall₂_map_right_iff, List.forall₂_same]
    exact fun community hmem =>
      ⟨rfl, hparsed community ((communityLevels_perm communities).mem_iff.mp hmem)⟩
  have hreports : reports =
      ((communityLevels communities).flatten.map (calls.reportRow contexts)).filterMap id := by
    rw [hrows, List.filterMap_map]
    rfl
  rw [hreports]
  refine forall₂_filterMap ?_ ?_ hcorresponds
  · rintro community ⟨-, hnone⟩
    exact hnone.symm
  · rintro community row ⟨hrow, hsome⟩
    exact ⟨hsome.symm, reportRow_attached hrow.symm⟩

/-! ### Failures -/

/-- The errors that end an extraction: a context that cannot be built, a prompt that cannot be
rendered, a report that cannot be written as JSON.  None of them comes from a call. -/
inductive ReportCalls.Fails (calls : ReportCalls γ tera) (communities : List CommunityInputRow) :
    GraphLoomError → Prop where
  | contexts {error : GraphLoomError} (h : calls.localContexts communities = .error error) :
    Fails calls communities error
  | prompt {error : GraphLoomError} {contexts : ℤ → String} {community : CommunityInputRow}
      (hcontexts : calls.localContexts communities = .ok contexts) (hmem : community ∈ communities)
      (h : calls.renderedPrompt (contexts community.community) = .error error) :
    Fails calls communities error
  | json {error : GraphLoomError} {contexts : ℤ → String} {community : CommunityInputRow}
      {report : CommunityReport} (hcontexts : calls.localContexts communities = .ok contexts)
      (hmem : community ∈ communities)
      (hparsed : calls.parsedReport contexts community = some report)
      (h : calls.toStringPretty report = .error error) :
    Fails calls communities error

variable {error : GraphLoomError}

theorem requestReport_error {context : String}
    (h : calls.requestReport community context = .error error) :
    calls.renderedPrompt context = .error error := by
  unfold requestReport at h
  cases hprompt : calls.renderedPrompt context with
  | error error' =>
    rw [hprompt] at h
    obtain rfl := Except.error.inj h
    rfl
  | ok prompt =>
    rw [hprompt] at h
    -- every way in which a call ends is no error
    dsimp only [bind, Except.bind] at h
    split at h
    · cases h
    · split at h
      · cases h
      · split at h
        · cases h
        · cases h

theorem extractReport_fails {index : ℕ} (hcontexts : calls.localContexts communities = .ok contexts)
    (hmem : community ∈ communities)
    (h : calls.extractReport ⟨index, community, contexts community.community⟩ = .error error) :
    calls.Fails communities error := by
  unfold extractReport at h
  cases hanswer : calls.requestReport community (contexts community.community) with
  | error error' =>
    rw [hanswer] at h
    obtain rfl := Except.error.inj h
    exact .prompt hcontexts hmem (requestReport_error hanswer)
  | ok answer =>
    rw [hanswer] at h
    cases answer with
    | error warning => cases h
    | ok report =>
      have hparsed : calls.parsedReport contexts community = some report := by
        unfold parsedReport
        rw [hanswer]
      refine .json hcontexts hmem hparsed ?_
      change (calls.toStringPretty report >>= _).map _ = _ at h
      cases hjson : calls.toStringPretty report with
      | error error' =>
        rw [hjson] at h
        obtain rfl := Except.error.inj h
        rfl
      | ok json =>
        rw [hjson] at h
        cases h

theorem runs_error (h : (calls.runs concurrency communities).Reachable s)
    (hreturned : s.returned = some (.error error)) : calls.Fails communities error := by
  rcases runs_returns h hreturned with ⟨levels, hlevels, hfailed⟩ | ⟨error', hlevels, heq⟩
  · obtain ⟨contexts, hcontexts, hmap⟩ := bind_eq_ok.mp hlevels
    obtain rfl := Except.ok.inj hmap
    obtain ⟨tasks, htasks, task, htask, herror⟩ := hfailed
    obtain ⟨rows, hrows, rfl⟩ := List.mem_map.mp htasks
    obtain ⟨row, hrow, rfl⟩ := List.mem_map.mp htask
    have hcommunity : row.1 ∈ communities := by
      apply (communityLevels_perm communities).mem_iff.mp
      apply List.mem_flatten_of_mem hrows
      rw [← List.zipIdx_map_fst 0 rows]
      exact List.mem_map_of_mem hrow
    exact extractReport_fails hcontexts hcommunity herror
  · obtain rfl := Except.error.inj heq
    cases hcontexts : calls.localContexts communities with
    | error error' =>
      unfold taskLevels at hlevels
      rw [hcontexts] at hlevels
      obtain rfl := Except.error.inj hlevels
      exact .contexts hcontexts
    | ok contexts =>
      unfold taskLevels at hlevels
      rw [hcontexts] at hlevels
      cases hlevels

/-! ### Calls that end in another way -/

/-- Two lists of reports of the communities have the same report, or both none, where the calls end
alike. -/
def AlikeReports (communities : List CommunityInputRow) (alike : CommunityInputRow → Prop)
    (reports reports' : List CommunityReportRow) : Prop :=
  ∃ (order : List CommunityInputRow) (rows rows' : CommunityInputRow → Option CommunityReportRow),
    order.Perm communities ∧ reports = order.filterMap rows ∧ reports' = order.filterMap rows' ∧
    (∀ community row, rows community = some row → row.community = community.community) ∧
    ∀ community, alike community → rows' community = rows community

/-- The same calls, but for the ways in which they end. -/
def ReportCalls.ending (calls : ReportCalls γ tera)
    (complete : CommunityInputRow → CompletionRequest → Except LlmError γ) : ReportCalls γ tera :=
  { calls with complete }

theorem reportRow_ending {complete : CommunityInputRow → CompletionRequest → Except LlmError γ}
    (h : complete community = calls.complete community) :
    (calls.ending complete).reportRow contexts community = calls.reportRow contexts community := by
  have hrequest : (calls.ending complete).requestReport community (contexts community.community) =
      calls.requestReport community (contexts community.community) := by
    unfold requestReport ending
    dsimp only
    rw [h]
    rfl
  unfold reportRow parsedReport
  rw [hrequest]
  rfl

theorem createCommunityReports_alike
    {complete : CommunityInputRow → CompletionRequest → Except LlmError γ}
    {reports reports' : List CommunityReportRow}
    (h : createCommunityReports calls.tools communities = .ok reports)
    (h' : createCommunityReports (calls.ending complete).tools communities = .ok reports') :
    AlikeReports communities (fun community => complete community = calls.complete community)
      reports reports' := by
  obtain ⟨contexts, hcontexts, -⟩ := bind_eq_ok.mp h
  have hcontexts' : (calls.ending complete).localContexts communities = .ok contexts := hcontexts
  refine ⟨_, _, _, communityLevels_perm communities, (createCommunityReports_rows hcontexts h).1,
    (createCommunityReports_rows hcontexts' h').1, ?_, fun _ halike => reportRow_ending halike⟩
  intro community row hrow
  obtain ⟨report, -, hattached⟩ := reportRow_attached hrow
  exact hattached.community

/-- **Reports do not depend on timing.** -/
theorem createCommunityReports_timing (calls : ReportCalls γ tera) (concurrency : ℕ)
    (communities : List CommunityInputRow) :
    -- every run returns
    (∃ bound, ∀ s labels t, (calls.runs concurrency communities).init s →
      (calls.runs concurrency communities).Run s labels t → labels.length ≤ bound ∧
        (t.returned = none → ∃ label u, (calls.runs concurrency communities).step t label u)) ∧
    ∀ s, (calls.runs concurrency communities).Reachable s → ∀ outcome, s.returned = some outcome →
      (∀ reports, outcome = .ok reports ↔
        createCommunityReports calls.tools communities = .ok reports) ∧
      (∀ error, outcome = .error error → calls.Fails communities error) ∧
      ∀ reports, outcome = .ok reports → ReportsOf calls communities reports ∧
        ∀ complete concurrency' s',
          ((calls.ending complete).runs concurrency' communities).Reachable s' →
          ∀ reports', s'.returned = some (.ok reports') →
            AlikeReports communities
              (fun community => complete community = calls.complete community)
              reports reports' := by
  have hlimit : 0 < max concurrency 1 := Nat.lt_of_lt_of_le Nat.zero_lt_one (Nat.le_max_right _ _)
  refine ⟨⟨(ReportsState.ofLevels (calls.taskLevels communities)).work, ?_⟩, ?_⟩
  · intro s labels t hinit hrun
    obtain rfl := hinit
    have hwork : ∀ s a t, (calls.runs concurrency communities).step s a t → t.work < s.work :=
      fun s a t hstep => ReportsStep.work_lt hstep
    have hlength := hrun.length_le hwork
    exact ⟨by omega, fun hreturned => exists_reportsStep hlimit hreturned⟩
  · intro s hs outcome hreturned
    refine ⟨runs_returned hs hreturned, ?_, ?_⟩
    · rintro error rfl
      exact runs_error hs hreturned
    · rintro reports rfl
      have hreports := (runs_returned hs hreturned reports).mp rfl
      refine ⟨createCommunityReports_reportsOf hreports, ?_⟩
      intro complete concurrency' s' hs' reports' hreturned'
      exact createCommunityReports_alike hreports ((runs_returned hs' hreturned' reports').mp rfl)

end GraphLoom.Communities
