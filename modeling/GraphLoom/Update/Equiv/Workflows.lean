import GraphLoom.Update.Equiv.Merge
import GraphLoom.Update.Workflows

/-!
# What an update does to the tables

Each workflow of a successful update has written its own tables and no others, so the final tables
are those that the merges compute from the previous and the delta tables (`updateIndex_ok`).
-/

namespace GraphLoom.Update

open Foundation

variable {ω : Type} {state state' : UpdateRuntimeState ω}

/-! ### One workflow -/

theorem updateFinalDocuments_ok (h : updateFinalDocuments state = .ok state') :
    ∃ old new merged, state.previous.documents = some old ∧ state.delta.documents = some new ∧
      concatenateWithRebasedIds old new = .ok merged ∧
      state' = { state with final := { state.final with documents := some merged } } := by
  unfold updateFinalDocuments at h
  obtain ⟨old, hold, h⟩ := bind_eq_ok.mp h
  obtain ⟨new, hnew, h⟩ := bind_eq_ok.mp h
  obtain ⟨merged, hmerged, h⟩ := bind_eq_ok.mp h
  exact ⟨old, new, merged, readDataframe_eq_ok_iff.mp hold, readDataframe_eq_ok_iff.mp hnew,
    hmerged, (Except.ok.inj h).symm⟩

theorem updateEntitiesRelationships_ok [Zero ω] [Add ω] [Div ω] [NatCast ω]
    {input : UpdateInput ω} (h : updateEntitiesRelationships input state = .ok state') :
    ∃ oldEntities newEntities mergedEntities mapping oldRelationships newRelationships
        mergedRelationships entitySummaries relationshipSummaries,
      state.previous.entities = some oldEntities ∧ state.delta.entities = some newEntities ∧
      mergeEntities oldEntities newEntities = .ok (mergedEntities, mapping) ∧
      state.previous.relationships = some oldRelationships ∧
      state.delta.relationships = some newRelationships ∧
      mergeRelationships oldRelationships newRelationships
        (mergedEntities.map MergedEntityRow.title) = .ok mergedRelationships ∧
      state' = {
        state with
        final := {
          state.final with
          entities := some (summarizedEntitiesDataframe mergedEntities entitySummaries)
          relationships :=
            some (summarizedRelationshipsDataframe mergedRelationships relationshipSummaries) }
        entityIdMapping := some mapping } := by
  unfold updateEntitiesRelationships at h
  obtain ⟨oldEntities, hold, h⟩ := bind_eq_ok.mp h
  obtain ⟨newEntities, hnew, h⟩ := bind_eq_ok.mp h
  obtain ⟨⟨mergedEntities, mapping⟩, hentities, h⟩ := bind_eq_ok.mp h
  obtain ⟨oldRelationships, holdR, h⟩ := bind_eq_ok.mp h
  obtain ⟨newRelationships, hnewR, h⟩ := bind_eq_ok.mp h
  obtain ⟨mergedRelationships, hrelationships, h⟩ := bind_eq_ok.mp h
  obtain ⟨entitySummaries, -, h⟩ := bind_eq_ok.mp h
  obtain ⟨relationshipSummaries, -, h⟩ := bind_eq_ok.mp h
  exact ⟨oldEntities, newEntities, mergedEntities, mapping, oldRelationships, newRelationships,
    mergedRelationships, entitySummaries, relationshipSummaries, readDataframe_eq_ok_iff.mp hold,
    readDataframe_eq_ok_iff.mp hnew, hentities, readDataframe_eq_ok_iff.mp holdR,
    readDataframe_eq_ok_iff.mp hnewR, hrelationships, (Except.ok.inj h).symm⟩

theorem updateTextUnits_ok (h : updateTextUnits state = .ok state') :
    ∃ mapping old new merged, state.entityIdMapping = some mapping ∧
      state.previous.textUnits = some old ∧ state.delta.textUnits = some new ∧
      mergeTextUnits old new mapping = .ok merged ∧
      state' = { state with final := { state.final with textUnits := some merged } } := by
  unfold updateTextUnits at h
  obtain ⟨mapping, hmapping, h⟩ := bind_eq_ok.mp h
  obtain ⟨old, hold, h⟩ := bind_eq_ok.mp h
  obtain ⟨new, hnew, h⟩ := bind_eq_ok.mp h
  obtain ⟨merged, hmerged, h⟩ := bind_eq_ok.mp h
  exact ⟨mapping, old, new, merged, okOr_eq_ok_iff.mp hmapping, readDataframe_eq_ok_iff.mp hold,
    readDataframe_eq_ok_iff.mp hnew, hmerged, (Except.ok.inj h).symm⟩

/-- Covariates are merged when both sides have a table, and left alone otherwise. -/
inductive CovariatesMerged (previous delta final : Option (List CovariateRecord)) :
    Option (List CovariateRecord) → Prop
  | merged {old new rows : List CovariateRecord} (hprevious : previous = some old)
      (hdelta : delta = some new) (hrows : concatenateWithRebasedIds old new = .ok rows) :
      CovariatesMerged previous delta final (some rows)
  | skipped (h : previous = none ∨ delta = none) : CovariatesMerged previous delta final final

theorem updateCovariates_ok (h : updateCovariates state = .ok state') :
    ∃ covariates, CovariatesMerged state.previous.covariates state.delta.covariates
        state.final.covariates covariates ∧
      state' = { state with final := { state.final with covariates := covariates } } := by
  unfold updateCovariates at h
  split at h
  · next hskip =>
    rw [Bool.or_eq_true, Option.isNone_iff_eq_none, Option.isNone_iff_eq_none] at hskip
    exact ⟨_, .skipped hskip, (Except.ok.inj h).symm⟩
  · obtain ⟨old, hold, h⟩ := bind_eq_ok.mp h
    obtain ⟨new, hnew, h⟩ := bind_eq_ok.mp h
    obtain ⟨rows, hrows, h⟩ := bind_eq_ok.mp h
    exact ⟨some rows, .merged (readDataframe_eq_ok_iff.mp hold) (readDataframe_eq_ok_iff.mp hnew)
      hrows, (Except.ok.inj h).symm⟩

theorem updateCommunities_ok (h : updateCommunities state = .ok state') :
    ∃ old new merged mapping, state.previous.communities = some old ∧
      state.delta.communities = some new ∧ mergeCommunities old new = .ok (merged, mapping) ∧
      state' = {
        state with
        final := { state.final with communities := some merged }
        communityIdMapping := some mapping } := by
  unfold updateCommunities at h
  obtain ⟨old, hold, h⟩ := bind_eq_ok.mp h
  obtain ⟨new, hnew, h⟩ := bind_eq_ok.mp h
  obtain ⟨⟨merged, mapping⟩, hmerged, h⟩ := bind_eq_ok.mp h
  exact ⟨old, new, merged, mapping, readDataframe_eq_ok_iff.mp hold,
    readDataframe_eq_ok_iff.mp hnew, hmerged, (Except.ok.inj h).symm⟩

theorem updateCommunityReports_ok (h : updateCommunityReports state = .ok state') :
    ∃ mapping old new, state.communityIdMapping = some mapping ∧
      state.previous.communityReports = some old ∧ state.delta.communityReports = some new ∧
      state' = {
        state with
        final := {
          state.final with
          communityReports := some (mergeCommunityReports old new mapping) } } := by
  unfold updateCommunityReports at h
  obtain ⟨mapping, hmapping, h⟩ := bind_eq_ok.mp h
  obtain ⟨old, hold, h⟩ := bind_eq_ok.mp h
  obtain ⟨new, hnew, h⟩ := bind_eq_ok.mp h
  exact ⟨mapping, old, new, okOr_eq_ok_iff.mp hmapping, readDataframe_eq_ok_iff.mp hold,
    readDataframe_eq_ok_iff.mp hnew, (Except.ok.inj h).symm⟩

/-! ### A whole update -/

theorem copyPreviousTables_empty (final : Tables ω) : copyPreviousTables final {} = final := by
  simp [copyPreviousTables]

variable [Zero ω] [Add ω] [Div ω] [NatCast ω]

/-- What a successful update does to each table. -/
structure UpdatesTo (final : Tables ω) (input : UpdateInput ω) (final' : Tables ω) : Prop where
  documents : ∃ old new merged, final.documents = some old ∧
    input.delta.documents = some new ∧ concatenateWithRebasedIds old new = .ok merged ∧
    final'.documents = some merged
  graph : ∃ oldEntities newEntities mergedEntities mapping oldRelationships newRelationships
      mergedRelationships entitySummaries relationshipSummaries oldTextUnits newTextUnits textUnits,
    final.entities = some oldEntities ∧ input.delta.entities = some newEntities ∧
    mergeEntities oldEntities newEntities = .ok (mergedEntities, mapping) ∧
    final.relationships = some oldRelationships ∧
    input.delta.relationships = some newRelationships ∧
    mergeRelationships oldRelationships newRelationships
      (mergedEntities.map MergedEntityRow.title) = .ok mergedRelationships ∧
    final.textUnits = some oldTextUnits ∧ input.delta.textUnits = some newTextUnits ∧
    mergeTextUnits oldTextUnits newTextUnits mapping = .ok textUnits ∧
    final'.entities = some (summarizedEntitiesDataframe mergedEntities entitySummaries) ∧
    final'.relationships =
      some (summarizedRelationshipsDataframe mergedRelationships relationshipSummaries) ∧
    final'.textUnits = some textUnits
  covariates : CovariatesMerged final.covariates input.delta.covariates final.covariates
    final'.covariates
  communities : ∃ old new merged oldReports newReports mapping, final.communities = some old ∧
    input.delta.communities = some new ∧ mergeCommunities old new = .ok (merged, mapping) ∧
    final.communityReports = some oldReports ∧ input.delta.communityReports = some newReports ∧
    final'.communities = some merged ∧
    final'.communityReports = some (mergeCommunityReports oldReports newReports mapping)

/-- **A successful update writes what the merges compute.** -/
theorem updateIndex_ok {final final' : Tables ω} {input : UpdateInput ω}
    (h : updateIndex final input = .ok final') : UpdatesTo final input final' := by
  unfold updateIndex updateWorkflows prepareUpdateRuntime at h
  rw [copyPreviousTables_empty] at h
  obtain ⟨last, hrun, hfinal⟩ := bind_eq_ok.mp h
  simp only [List.foldlM_cons, List.foldlM_nil] at hrun
  obtain ⟨_, hdocuments, hrun⟩ := bind_eq_ok.mp hrun
  obtain ⟨oldD, newD, mergedD, hold, hnew, hmerged, rfl⟩ := updateFinalDocuments_ok hdocuments
  obtain ⟨_, hgraph, hrun⟩ := bind_eq_ok.mp hrun
  obtain ⟨oldE, newE, mergedE, mapping, oldR, newR, mergedR, entityS, relationshipS, holdE, hnewE,
    hmergedE, holdR, hnewR, hmergedR, rfl⟩ := updateEntitiesRelationships_ok hgraph
  obtain ⟨_, htextUnits, hrun⟩ := bind_eq_ok.mp hrun
  obtain ⟨_, oldT, newT, textUnits, hmapping, holdT, hnewT, hmergedT, rfl⟩ :=
    updateTextUnits_ok htextUnits
  obtain ⟨_, hcovariates, hrun⟩ := bind_eq_ok.mp hrun
  obtain ⟨covariates, hmergedC, rfl⟩ := updateCovariates_ok hcovariates
  obtain ⟨_, hcommunities, hrun⟩ := bind_eq_ok.mp hrun
  obtain ⟨old, new, merged, communityMapping, holdC, hnewC, hmergedCommunities, rfl⟩ :=
    updateCommunities_ok hcommunities
  obtain ⟨_, hreports, hrun⟩ := bind_eq_ok.mp hrun
  obtain ⟨_, oldReports, newReports, hcommunityMapping, holdReports, hnewReports, rfl⟩ :=
    updateCommunityReports_ok hreports
  obtain ⟨_, hclean, hrun⟩ := bind_eq_ok.mp hrun
  obtain rfl := Except.ok.inj hclean
  obtain rfl := Except.ok.inj hrun
  obtain rfl := Except.ok.inj hfinal
  obtain rfl := Option.some.inj hmapping
  obtain rfl := Option.some.inj hcommunityMapping
  exact {
    documents := ⟨oldD, newD, mergedD, hold, hnew, hmerged, rfl⟩
    graph := ⟨oldE, newE, mergedE, mapping, oldR, newR, mergedR, entityS, relationshipS, oldT, newT,
      textUnits, holdE, hnewE, hmergedE, holdR, hnewR, hmergedR, holdT, hnewT, hmergedT, rfl, rfl,
      rfl⟩
    covariates := hmergedC
    communities := ⟨old, new, merged, oldReports, newReports, communityMapping, holdC, hnewC,
      hmergedCommunities, holdReports, hnewReports, rfl, rfl⟩ }

end GraphLoom.Update
