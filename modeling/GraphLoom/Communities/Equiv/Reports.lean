import GraphLoom.Communities.Reports
import GraphLoom.Foundation.Fallible

/-!
# Reports are about communities

A community names its number in its title (`createCommunities_titled`), and a report has the number
and the level of a community (`createCommunityReports_spec`).
-/

namespace GraphLoom.Communities

open Foundation

variable {ω : Type}

/-! ### Titles -/

variable {relationships : List (RelationshipRow ω)} {entities : List EntityRow}
  {identity : RunIdentity}

theorem optionalCommunityRow_titled {titles : AList fun _ : ℤ × String => ℤ} {index : ℕ}
    {cluster : CommunityCluster} {row : CommunityRow}
    (h : optionalCommunityRow identity entities relationships titles index cluster =
      .ok (some row)) : row.title = "Community " ++ toString row.community := by
  unfold optionalCommunityRow at h
  dsimp only at h
  split_ifs at h
  · cases Except.ok.inj h
  · cases Except.ok.inj h
  · obtain ⟨size, -, h⟩ := bind_eq_ok.mp h
    obtain rfl := Option.some.inj (Except.ok.inj h)
    rfl

theorem communityRows_titled {clusters : List CommunityCluster}
    {rows : List CommunityRow} (h : communityRows identity entities relationships clusters = .ok rows) :
    ∀ row ∈ rows, row.title = "Community " ++ toString row.community := by
  refine foldlM_invariant (P := fun rows : List CommunityRow =>
    ∀ row ∈ rows, row.title = "Community " ++ toString row.community) h ?_ ?_
  · exact fun row hrow => absurd hrow List.not_mem_nil
  · intro before cluster after hbefore hstep row hrow
    obtain ⟨result, hresult, hafter⟩ := bind_eq_ok.mp hstep
    obtain rfl := Except.ok.inj hafter
    rcases List.mem_append.mp hrow with hrow | hrow
    · exact hbefore row hrow
    · rw [Option.mem_toList] at hrow
      rw [hrow] at hresult
      exact optionalCommunityRow_titled hresult

/-- Children do not change titles. -/
theorem createCommunities_titled {tools : ClusterTools ω} {maxClusterSize seed : ℕ}
    {useLcc : Bool} {rows : List CommunityRow}
    (h : createCommunities tools identity entities relationships maxClusterSize useLcc seed =
      .ok rows) : ∀ row ∈ rows, row.title = "Community " ++ toString row.community := by
  obtain ⟨clusters, -, h⟩ := bind_eq_ok.mp h
  obtain ⟨joined, hjoined, h⟩ := bind_eq_ok.mp h
  obtain rfl := Except.ok.inj h
  intro row' hrow'
  obtain ⟨row, hrow, rfl⟩ := List.mem_map.mp hrow'
  exact communityRows_titled hjoined row hrow

/-! ### Reports -/

/-- A report has the number and the level of its community, and its rank is finite. -/
structure Reports (report : CommunityReportRow) (row : CommunityInputRow) : Prop where
  community : report.community = row.community
  level : report.level = row.level
  finite : report.rank.isFinite = true

variable {tools : ReportTools}

theorem extractReportForCommunity_reports {context : String} {community : CommunityInputRow}
    {report : CommunityReportRow}
    (h : extractReportForCommunity tools context community = .ok (some report)) :
    Reports report community := by
  obtain ⟨parsed, -, h⟩ := bind_eq_ok.mp h
  cases parsed with
  | none => cases Except.ok.inj h
  | some parsed =>
    obtain ⟨row, hrow, h⟩ := map_eq_ok.mp h
    obtain rfl := Option.some.inj h
    obtain ⟨json, -, hrow⟩ := bind_eq_ok.mp hrow
    obtain rfl := Except.ok.inj hrow
    exact ⟨rfl, rfl, parsed.finite⟩

theorem createCommunityReports_spec {communities : List CommunityInputRow}
    {reports : List CommunityReportRow} (h : createCommunityReports tools communities = .ok reports) :
    ∀ report ∈ reports, ∃ community ∈ communities, Reports report community := by
  obtain ⟨contexts, -, h⟩ := bind_eq_ok.mp h
  obtain ⟨levels, hlevels, h⟩ := bind_eq_ok.mp h
  obtain rfl := Except.ok.inj h
  rw [mapM_eq_ok_iff] at hlevels
  intro report hreport
  rw [List.reduceOption_mem_iff, List.mem_flatten] at hreport
  obtain ⟨extracted, hextracted, hreport⟩ := hreport
  obtain ⟨rows, hrows, hlevel⟩ := forall₂_exists_left hlevels hextracted
  rw [mapM_eq_ok_iff] at hlevel
  obtain ⟨community, hcommunity, hresult⟩ := forall₂_exists_left hlevel hreport
  refine ⟨community, ?_, extractReportForCommunity_reports hresult⟩
  -- a row of a level is one of the communities
  rw [List.mem_reverse, List.mem_map] at hrows
  obtain ⟨⟨level, group⟩, hgroup, rfl⟩ := hrows
  obtain ⟨rfl, -⟩ := (mem_groupBy_iff _ _).mp hgroup
  rw [List.mem_mergeSort] at hcommunity
  exact (List.mem_filter.mp hcommunity).1

theorem readCommunityInputRows_spec {dataframe : List CommunityRecord}
    {communities : List CommunityInputRow} (h : readCommunityInputRows dataframe = .ok communities) :
    ∀ community ∈ communities, ∃ row ∈ dataframe, row.community = some community.community ∧
      row.level = community.level := by
  intro community hcommunity
  unfold readCommunityInputRows at h
  rw [mapM_eq_ok_iff] at h
  obtain ⟨row, hrow, hread⟩ := forall₂_exists_left h hcommunity
  obtain ⟨number, hnumber, hread⟩ := bind_eq_ok.mp hread
  obtain ⟨parent, -, hread⟩ := bind_eq_ok.mp hread
  obtain ⟨period, -, hread⟩ := bind_eq_ok.mp hread
  obtain ⟨size, -, hread⟩ := bind_eq_ok.mp hread
  obtain rfl := Except.ok.inj hread
  exact ⟨row, hrow, okOr_eq_ok_iff.mp hnumber, rfl⟩

end GraphLoom.Communities
