import GraphLoom.Communities.Equiv.Reports
import GraphLoom.Query.Equiv.IndexTables
import GraphLoom.Update.Equiv.Communities

/-!
# The tables that the program writes are read back

A standard run leaves tables whose cells are as the adapters expect them, and an update keeps them
so: it numbers the communities and their reports alike and names them again.
-/

namespace GraphLoom.Query

open Communities Foundation Update

/-- The tables that queries read, with cells that are as the adapters expect them. -/
structure Readable (tables : Tables F64) (entities : List EntityRecord)
    (communities : List CommunityRecord) (reports : List (CommunityReportRecord F64)) : Prop where
  entities_eq : tables.entities = some entities
  communities_eq : tables.communities = some communities
  reports_eq : tables.communityReports = some reports
  entityCells : ∀ row ∈ entities, EntityCells row
  communityCells : ∀ row ∈ communities, CommunityCells row
  reportCells : ∀ report ∈ reports, ReportCells communities report

/-! ### Standard runs -/

theorem communityCells_communitiesDataframe {rows : List CommunityRow}
    (h : ∀ row ∈ rows, row.title = "Community " ++ toString row.community) :
    ∀ row ∈ communitiesDataframe rows, CommunityCells row := by
  intro row' hrow'
  obtain ⟨row, hrow, rfl⟩ := List.mem_map.mp hrow'
  exact ⟨row.community, row.parent, row.entityIds, rfl, rfl, rfl, h row hrow⟩

theorem StandardIndex.readable {tables : Tables F64} (h : StandardIndex tables) :
    ∃ entities communities reports, Readable tables entities communities reports := by
  obtain ⟨run, h⟩ := h
  obtain ⟨clustered, hclustered, h⟩ := bind_eq_ok.mp h
  obtain ⟨entities, hentities, hclustered⟩ := bind_eq_ok.mp hclustered
  obtain ⟨relationships, -, hclustered⟩ := bind_eq_ok.mp hclustered
  obtain ⟨communities, hcommunities, hclustered⟩ := bind_eq_ok.mp hclustered
  obtain rfl := Except.ok.inj hclustered
  obtain ⟨rows, hrows, h⟩ := bind_eq_ok.mp h
  rw [readDataframe_eq_ok_iff] at hrows
  obtain rfl := Option.some.inj hrows
  obtain ⟨inputs, hinputs, h⟩ := bind_eq_ok.mp h
  obtain ⟨reports, hreports, h⟩ := bind_eq_ok.mp h
  obtain rfl := Except.ok.inj h
  refine ⟨_, _, _, rfl, rfl, rfl, ?_,
    communityCells_communitiesDataframe (createCommunities_titled hcommunities), ?_⟩
  · intro row' hrow'
    obtain ⟨row, -, rfl⟩ := List.mem_map.mp hrow'
    exact ⟨row.description, row.textUnitIds, rfl, rfl⟩
  · intro report' hreport'
    obtain ⟨report, hreport, rfl⟩ := List.mem_map.mp hreport'
    obtain ⟨input, hinput, hcommunity, hlevel, hfinite⟩ :=
      createCommunityReports_spec hreports report hreport
    obtain ⟨row, hrow, hnumber, hsame⟩ := readCommunityInputRows_spec hinputs input hinput
    refine ⟨hfinite, row, hrow, input.community, hnumber, ?_, hsame.trans hlevel.symm⟩
    exact congrArg some hcommunity

/-! ### Updates -/

section Merge

variable {previous delta merged : List CommunityRecord} {mapping : CommunityMapping}

/-- A row with the title and the human-readable id of its community. -/
def retitled (row : CommunityRecord) : CommunityRecord :=
  { row with
    title := "Community " ++ toString (row.community.getD 0)
    humanReadableId := row.community.getD 0 }

/-- A row of the delta with its numbers mapped. -/
def renumbered (mapping : CommunityMapping) (row : CommunityRecord) : CommunityRecord :=
  { row with
    community := remapInteger mapping row.community
    parent := remapInteger mapping row.parent }

theorem mergeCommunities_rows (h : mergeCommunities previous delta = .ok (merged, mapping)) :
    merged = previous.map retitled ++ delta.map fun row => retitled (renumbered mapping row) := by
  obtain ⟨mapping', -, h⟩ := bind_eq_ok.mp h
  cases Except.ok.inj h
  rw [List.map_append, List.map_map]
  rfl

theorem communityCells_retitled {row : CommunityRecord} (h : CommunityCells row) :
    CommunityCells (retitled row) := by
  obtain ⟨community, parent, entityIds, hcommunity, hparent, hentityIds, -⟩ := h
  refine ⟨community, parent, entityIds, hcommunity, hparent, hentityIds, ?_⟩
  rw [retitled, hcommunity]
  rfl

theorem communityCells_renumbered {row : CommunityRecord} (h : CommunityCells row) :
    CommunityCells (retitled (renumbered mapping row)) := by
  obtain ⟨community, parent, entityIds, hcommunity, hparent, hentityIds, -⟩ := h
  refine ⟨mapped mapping community, mapped mapping parent, entityIds, ?_, ?_, hentityIds, ?_⟩
  · exact congrArg (remapInteger mapping) hcommunity
  · exact congrArg (remapInteger mapping) hparent
  · rw [retitled, renumbered, hcommunity]
    rfl

theorem communityCells_merge (h : mergeCommunities previous delta = .ok (merged, mapping))
    (hprevious : ∀ row ∈ previous, CommunityCells row) (hdelta : ∀ row ∈ delta, CommunityCells row) :
    ∀ row ∈ merged, CommunityCells row := by
  intro row' hrow'
  rw [mergeCommunities_rows h, List.mem_append, List.mem_map, List.mem_map] at hrow'
  rcases hrow' with ⟨row, hrow, rfl⟩ | ⟨row, hrow, rfl⟩
  · exact communityCells_retitled (hprevious row hrow)
  · exact communityCells_renumbered (hdelta row hrow)

/-- Reports stay with their communities. -/
theorem reportCells_merge {previousReports deltaReports : List (CommunityReportRecord F64)}
    (h : mergeCommunities previous delta = .ok (merged, mapping))
    (hprevious : ∀ report ∈ previousReports, ReportCells previous report)
    (hdelta : ∀ report ∈ deltaReports, ReportCells delta report) :
    ∀ report ∈ mergeCommunityReports previousReports deltaReports mapping,
      ReportCells merged report := by
  have hrows := mergeCommunities_rows h
  intro report' hreport'
  rw [mergeCommunityReports, List.map_append, List.map_map, List.mem_append, List.mem_map,
    List.mem_map] at hreport'
  rcases hreport' with ⟨report, hreport, rfl⟩ | ⟨report, hreport, rfl⟩
  · obtain ⟨hfinite, row, hrow, community, hcommunity, hsame, hlevel⟩ := hprevious report hreport
    refine ⟨hfinite, retitled row, ?_, community, hcommunity, hsame, hlevel⟩
    rw [hrows]
    exact List.mem_append_left _ (List.mem_map_of_mem hrow)
  · obtain ⟨hfinite, row, hrow, community, hcommunity, hsame, hlevel⟩ := hdelta report hreport
    refine ⟨hfinite, retitled (renumbered mapping row), ?_, mapped mapping community,
      congrArg (remapInteger mapping) hcommunity, congrArg (remapInteger mapping) hsame, hlevel⟩
    rw [hrows]
    exact List.mem_append_right _ (List.mem_map_of_mem hrow)

end Merge

theorem entityCells_summarized (merged : List MergedEntityRow)
    (summaries : List SummarizedEntityRow) :
    ∀ row ∈ summarizedEntitiesDataframe merged summaries, EntityCells row := by
  intro row' hrow'
  obtain ⟨row, -, rfl⟩ := List.mem_map.mp hrow'
  exact ⟨_, row.textUnitIds, rfl, rfl⟩

section Runs

variable [Zero F64] [Add F64] [Div F64] [NatCast F64]

theorem readable_update {previous final : Tables F64} {input : UpdateInput F64}
    (h : UpdatesTo previous input final)
    (hprevious : ∃ entities communities reports, Readable previous entities communities reports)
    (hdelta : ∃ entities communities reports, Readable input.delta entities communities reports) :
    ∃ entities communities reports, Readable final entities communities reports := by
  obtain ⟨oldEntities, oldCommunities, oldReports, hold⟩ := hprevious
  obtain ⟨newEntities, newCommunities, newReports, hnew⟩ := hdelta
  obtain ⟨-, -, mergedEntities, -, -, -, -, summaries, -, -, -, -, -, -, -, -, -, -, -, -, -,
    hentities, -⟩ := h.graph
  obtain ⟨old, new, merged, oldR, newR, mapping, hcommunities, hdeltaCommunities, hmerge, hreports,
    hdeltaReports, hfinal, hfinalReports⟩ := h.communities
  obtain rfl := Option.some.inj (hold.communities_eq.symm.trans hcommunities)
  obtain rfl := Option.some.inj (hnew.communities_eq.symm.trans hdeltaCommunities)
  obtain rfl := Option.some.inj (hold.reports_eq.symm.trans hreports)
  obtain rfl := Option.some.inj (hnew.reports_eq.symm.trans hdeltaReports)
  exact ⟨_, merged, _, hentities, hfinal, hfinalReports, entityCells_summarized _ _,
    communityCells_merge hmerge hold.communityCells hnew.communityCells,
    reportCells_merge hmerge hold.reportCells hnew.reportCells⟩

/-- Every index of a standard run and of updates after it can be read. -/
theorem indexSystem_readable {tables : Tables F64} (h : indexSystem.Reachable tables) :
    ∃ entities communities reports, Readable tables entities communities reports := by
  refine h.invariant (fun s hs => (show StandardIndex s from hs).readable) ?_
  rintro previous input final - hprevious ⟨hdelta, hupdate⟩
  exact readable_update (updateIndex_ok hupdate) hprevious (show StandardIndex _ from hdelta).readable

/-- **The adapters read back every index that the program writes.** -/
theorem adapters_read_index (asF64 : ℤ → F64) {tables : Tables F64}
    (h : indexSystem.Reachable tables) (level : ℤ) (method : SearchMethod) :
    ∃ entities communities reports, tables.entities = some entities ∧
      tables.communities = some communities ∧ tables.communityReports = some reports ∧
      (∀ dynamic, readIndexerReports asF64 (communityReportsFrame reports)
        (communitiesFrame communities) level dynamic method =
          .ok ((reports.filter fun report => report.level ≤ level).map adaptedReport)) ∧
      (∃ rows, readIndexerEntities (entitiesFrame entities) (communitiesFrame communities) level
        method = .ok rows ∧ ReadsEntities entities communities level rows) ∧
      readIndexerCommunities (communitiesFrame communities) (communityReportsFrame reports) method =
        .ok ((communities.filter fun row =>
          row.community ∈ reports.map CommunityReportRecord.community).map adaptedCommunity) := by
  obtain ⟨entities, communities, reports, hread⟩ := indexSystem_readable h
  exact ⟨entities, communities, reports, hread.entities_eq, hread.communities_eq, hread.reports_eq,
    readIndexerReports_ok asF64 hread.communityCells hread.reportCells,
    readIndexerEntities_ok hread.entityCells hread.communityCells,
    readIndexerCommunities_ok hread.communityCells hread.reportCells⟩

end Runs

/-! ### A sample run -/

def sampleEntity (title : String) : FinalEntityRow where
  id := "entity-" ++ title
  humanReadableId := 0
  title := title
  entityType := "PERSON"
  description := title
  textUnitIds := ["text-unit"]
  frequency := 1
  degree := 1

def sampleReport : Communities.CommunityReport where
  title := "Alice and Bob"
  summary := "They know each other."
  rating := ⟨0x4014000000000000#64⟩
  ratingExplanation := "A single relationship."
  findings := []
  finite := by decide

/-- Two entities with a relationship, which are one community with a report. -/
def sampleRun : StandardRun where
  before := {
    documents := some []
    relationships := some [{
      id := "relationship"
      humanReadableId := 0
      source := "ALICE"
      target := "BOB"
      description := .string "knows"
      weight := ⟨0x3ff0000000000000#64⟩
      combinedDegree := 2
      textUnitIds := .list ["text-unit"] }] }
  entities := [sampleEntity "ALICE", sampleEntity "BOB"]
  clusterTools := {
    decodeHtmlEntities := id
    toUppercase := id
    hierarchicalLeiden := fun _ _ _ => .ok [⟨"ALICE", 0, 0, none⟩, ⟨"BOB", 0, 0, none⟩] }
  identity := ⟨"2026-01-01", fun _ => "community-0"⟩
  maxClusterSize := 10
  useLcc := false
  seed := 0xDEADBEEF
  textUnits := some []
  reportTools := {
    buildLocalContexts := fun _ => .ok fun _ => ""
    complete := fun _ _ => .ok (some sampleReport)
    genSha512Hash := id
    toStringPretty := fun _ => .ok "" }

/-- The report of one community. -/
theorem sampleRun_reports (input : CommunityInputRow) :
    createCommunityReports sampleRun.reportTools [input] = .ok [{
      id := "# Alice and Bob\n\nThey know each other."
      humanReadableId := input.community
      community := input.community
      level := input.level
      parent := input.parent
      children := input.children
      title := "Alice and Bob"
      summary := "They know each other."
      fullContent := "# Alice and Bob\n\nThey know each other."
      rank := sampleReport.rating
      ratingExplanation := "A single relationship."
      findings := []
      fullContentJson := ""
      period := input.period
      size := input.size }] := by
  have hgroups : groupBy CommunityInputRow.level [input] = [(input.level, [input])] := rfl
  unfold createCommunityReports
  dsimp only [sampleRun, bind, Except.bind]
  rw [hgroups, List.map_singleton, List.mergeSort_singleton]
  rfl

def sampleCommunityInput : CommunityInputRow where
  community := 0
  level := 0
  parent := -1
  children := []
  entityIds := ["entity-ALICE", "entity-BOB"]
  period := "2026-01-01"
  size := 2

/-- An update of an index with itself, without summaries.  Every sum of weights is the rating. -/
def sampleUpdate (tables : Tables F64) : Except GraphLoomError (Tables F64) :=
  let rating := sampleReport.rating
  @Update.updateIndex _ ⟨rating⟩ ⟨fun _ _ => rating⟩ ⟨fun _ _ => rating⟩ ⟨fun _ => rating⟩ tables
    ⟨tables, fun _ => .ok [], fun _ => .ok []⟩

theorem sampleRun_update : ∃ tables final, sampleRun.tables = .ok tables ∧
    sampleUpdate tables = .ok final ∧
    (final.communityReports.map fun reports => reports.map fun report => report.community) =
      some [some 0, some 1] := by
  have htables : sampleRun.tables = (do
      let reports ← createCommunityReports sampleRun.reportTools [sampleCommunityInput]
      let clustered ← createCommunitiesWorkflow sampleRun.clusterTools sampleRun.identity
        sampleRun.maxClusterSize sampleRun.useLcc sampleRun.seed { sampleRun.before with
          entities := some (finalEntitiesDataframe sampleRun.entities) }
      return { clustered with
        textUnits := some []
        communityReports := some (communityReportsDataframe reports) }) := rfl
  rw [htables, sampleRun_reports]
  exact ⟨_, _, rfl, rfl, rfl⟩

/-- The reports of the sample run and of its update are read with and without the roll-up. -/
theorem adapters_read_index_sample : ∃ tables final, sampleRun.tables = .ok tables ∧
    sampleUpdate tables = .ok final ∧
    ∃ entities communities reports, final.entities = some entities ∧
      final.communities = some communities ∧ final.communityReports = some reports ∧
      reports.length = 2 ∧
      (∀ dynamic, readIndexerReports (fun _ => sampleReport.rating) (communityReportsFrame reports)
        (communitiesFrame communities) 2 dynamic .global =
          .ok ((reports.filter fun report => report.level ≤ 2).map adaptedReport)) ∧
      (∃ rows, readIndexerEntities (entitiesFrame entities) (communitiesFrame communities) 2
        .global = .ok rows ∧ ReadsEntities entities communities 2 rows) ∧
      readIndexerCommunities (communitiesFrame communities) (communityReportsFrame reports)
        .global = .ok ((communities.filter fun row =>
          row.community ∈ reports.map CommunityReportRecord.community).map adaptedCommunity) := by
  obtain ⟨tables, final, htables, hupdate, hcommunities⟩ := sampleRun_update
  let rating := sampleReport.rating
  obtain ⟨entities, communities, reports, hentities, hcommunity, hreports, hread⟩ :=
    @adapters_read_index ⟨rating⟩ ⟨fun _ _ => rating⟩ ⟨fun _ _ => rating⟩ ⟨fun _ => rating⟩
      (fun _ => rating) final
      (System.Reachable.step (.init ⟨sampleRun, htables⟩) ⟨⟨sampleRun, htables⟩, hupdate⟩) 2 .global
  rw [hreports] at hcommunities
  have hlength := congrArg List.length (Option.some.inj hcommunities)
  rw [List.length_map] at hlength
  exact ⟨tables, final, htables, hupdate, entities, communities, reports, hentities, hcommunity,
    hreports, hlength, hread⟩

end GraphLoom.Query
