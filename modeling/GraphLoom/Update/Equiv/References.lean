import GraphLoom.Update.Equiv.Workflows
import Mathlib.Algebra.Ring.Rat

/-!
# References of updated indexes

The entity ids in the text units of an index are ids of its entities.  A merge drops the ids of the
delta entities whose titles exist already and rewrites the delta text units accordingly, so its
result is closed again, and so is that of every update of a project
(`updateIndex_keeps_entity_references`).

Only the entity ids of text units are rewritten by an update.  The other references of the delta
tables stay as they are, so they resolve unless the entity or relationship referred to was absorbed
by a previous one with the same title, or with the same source and target
(`merge_resolves_references`).
-/

namespace GraphLoom.Update

/-- The tables that the entity references are about. -/
structure EntityIndex where
  entities : List EntityRecord
  textUnits : List TextUnitRecord
deriving DecidableEq

end GraphLoom.Update

namespace GraphLoom.Tables

def entityIndex {ω : Type} (tables : Tables ω) : Update.EntityIndex where
  entities := rowsOf tables.entities
  textUnits := rowsOf tables.textUnits

end GraphLoom.Tables

namespace GraphLoom.Update

open Foundation

variable {ω : Type}

namespace EntityIndex

/-- Every entity id in the text units is the id of an entity. -/
def Closed (index : EntityIndex) : Prop :=
  ∀ row ∈ index.textUnits, ∀ id ∈ row.entityIds.toStringList,
    id ∈ index.entities.map EntityRecord.id

/-- What a merge needs of the previous index, and leaves. -/
structure Coherent (index : EntityIndex) : Prop where
  titles_unique : (index.entities.map EntityRecord.title).Nodup
  closed : index.Closed

/-- An index as a standard run leaves it. -/
structure Standard (index : EntityIndex) : Prop extends Coherent index where
  ids_unique : (index.entities.map EntityRecord.id).Nodup

/-- The entities are merged and summarized, and then the text units with the mapping found. -/
def Merges (previous delta final : EntityIndex) : Prop :=
  ∃ merged mapping summaries,
    mergeEntities previous.entities delta.entities = .ok (merged, mapping) ∧
    mergeTextUnits previous.textUnits delta.textUnits mapping = .ok final.textUnits ∧
    final.entities = summarizedEntitiesDataframe merged summaries

/-- Merges one after the other, each with the index of a standard run. -/
def mergeSystem : System EntityIndex EntityIndex where
  init := Standard
  step previous delta final := delta.Standard ∧ Merges previous delta final

/-- A delta entity id whose title existed becomes the id of the surviving entity with that title,
and any other id stays. -/
def Rewrites (previous delta final : EntityIndex) (id id' : String) : Prop :=
  (∀ entity ∈ delta.entities, entity.id = id →
    entity.title ∈ previous.entities.map EntityRecord.title →
      ∃ survivor ∈ final.entities, survivor.title = entity.title ∧ id' = survivor.id) ∧
  ((∀ entity ∈ delta.entities, entity.id = id →
    entity.title ∉ previous.entities.map EntityRecord.title) → id' = id)

/-- The previous text units stay, and the delta ones follow with rewritten entity ids and new
human-readable ids. -/
def KeepsTextUnits (previous delta final : EntityIndex) : Prop :=
  ∃ rewritten, final.textUnits = previous.textUnits ++ rewritten ∧
    List.Forall₂ (fun row row' =>
      row' = { row with humanReadableId := row'.humanReadableId, entityIds := row'.entityIds } ∧
      List.Forall₂ (Rewrites previous delta final) row.entityIds.toStringList
        row'.entityIds.toStringList) delta.textUnits rewritten

/-! ### One merge -/

variable {previous delta final : EntityIndex}

/-- Merged titles are unique. -/
theorem Merges.titles_unique (h : Merges previous delta final) :
    (final.entities.map EntityRecord.title).Nodup := by
  obtain ⟨merged, mapping, summaries, hmerge, -, hentities⟩ := h
  rw [hentities, summarized_map_title]
  exact (mergeEntities_titles_sorted hmerge).imp fun hlt => hlt.ne

/-- A merge keeps the entity references closed. -/
theorem Merges.closed (h : Merges previous delta final) (hprevious : previous.Coherent)
    (hdelta : delta.Standard) : final.Closed := by
  obtain ⟨merged, mapping, summaries, hmerge, hunits, hentities⟩ := h
  obtain ⟨rebased, hrebased, hfinal⟩ := mergeTextUnits_ok hunits
  intro row hrow id hid
  rw [hentities, summarized_map_id]
  rw [hfinal] at hrow
  rcases List.mem_append.mp hrow with hrow | hrow
  · obtain ⟨record, hrecord, rfl⟩ := List.mem_map.mp (hprevious.closed row hrow id hid)
    obtain ⟨survivor, hsurvivor, -, hsurvivorId⟩ :=
      mergeEntities_previous hmerge hprevious.titles_unique hrecord
    exact List.mem_map.mpr ⟨survivor, hsurvivor, hsurvivorId⟩
  · obtain ⟨newRow, hnewRow, rfl⟩ := List.mem_map.mp hrow
    obtain ⟨deltaRow, hdeltaRow, hsame⟩ := forall₂_exists_left hrebased hnewRow
    rw [remapEntityIds_toStringList] at hid
    obtain ⟨oldId, holdId, rfl⟩ := List.mem_map.mp hid
    have holdId : oldId ∈ deltaRow.entityIds.toStringList := by
      rw [hsame] at holdId
      exact holdId
    obtain ⟨record, hrecord, rfl⟩ := List.mem_map.mp (hdelta.closed deltaRow hdeltaRow oldId holdId)
    obtain ⟨survivor, hsurvivor, -, hsurvivorId, -⟩ :=
      mergeEntities_delta hmerge hprevious.titles_unique hdelta.titles_unique hdelta.ids_unique
        hrecord
    exact List.mem_map.mpr ⟨survivor, hsurvivor, hsurvivorId.symm⟩

theorem rewrites_remapEntityId {merged : List MergedEntityRow} {mapping : IdMapping}
    {summaries : List SummarizedEntityRow}
    (hmerge : mergeEntities previous.entities delta.entities = .ok (merged, mapping))
    (hentities : final.entities = summarizedEntitiesDataframe merged summaries)
    (htitles : (previous.entities.map EntityRecord.title).Nodup) (hdelta : delta.Standard)
    (id : String) : Rewrites previous delta final id (remapEntityId mapping id) := by
  constructor
  · rintro entity hentity rfl -
    obtain ⟨row, hrow, htitle, hid, -⟩ :=
      mergeEntities_delta hmerge htitles hdelta.titles_unique hdelta.ids_unique hentity
    obtain ⟨survivor, hsurvivor, hst, hsid⟩ := exists_mem_summarized hrow summaries
    exact ⟨survivor, hentities ▸ hsurvivor, hst.trans htitle, hid.trans hsid.symm⟩
  · intro hnew
    by_cases hknown : id ∈ delta.entities.map EntityRecord.id
    · obtain ⟨entity, hentity, rfl⟩ := List.mem_map.mp hknown
      obtain ⟨row, -, -, hid, hstays⟩ :=
        mergeEntities_delta hmerge htitles hdelta.titles_unique hdelta.ids_unique hentity
      exact hid.trans (hstays (hnew entity hentity rfl))
    · obtain ⟨rfl, -⟩ := mergeEntities_ok hmerge
      rw [← readEntities_map_id] at hknown
      rw [remapEntityId, lookup_entityIdMapping_of_not_mem hknown]
      rfl

/-- A merge rewrites the ids of the entities that existed, and no others. -/
theorem Merges.keepsTextUnits (h : Merges previous delta final)
    (htitles : (previous.entities.map EntityRecord.title).Nodup) (hdelta : delta.Standard) :
    KeepsTextUnits previous delta final := by
  obtain ⟨merged, mapping, summaries, hmerge, hunits, hentities⟩ := h
  obtain ⟨rebased, hrebased, hfinal⟩ := mergeTextUnits_ok hunits
  refine ⟨_, hfinal, ?_⟩
  rw [List.forall₂_map_right_iff]
  refine hrebased.imp fun row row' hsame => ?_
  have hrow : row'.entityIds = row.entityIds := by rw [hsame]; rfl
  constructor
  · unfold SameContents at hsame
    generalize humanReadableId row' = i at hsame
    subst hsame
    rfl
  · rw [remapEntityIds_toStringList, hrow, List.forall₂_map_right_iff, List.forall₂_same]
    exact fun id _ => rewrites_remapEntityId hmerge hentities htitles hdelta id

/-! ### Any number of merges -/

theorem Merges.coherent (h : Merges previous delta final) (hprevious : previous.Coherent)
    (hdelta : delta.Standard) : final.Coherent where
  titles_unique := h.titles_unique
  closed := h.closed hprevious hdelta

theorem coherent_of_reachable {index : EntityIndex} (h : mergeSystem.Reachable index) :
    index.Coherent := by
  refine System.Reachable.invariant (M := mergeSystem) (fun _ hinit => ?_) ?_ h
  · exact Standard.toCoherent hinit
  · intro previous delta final _ hprevious hstep
    exact hstep.2.coherent hprevious hstep.1

end EntityIndex

/-- An update merges the entities and text units of its tables. -/
theorem updateIndex_merges [Zero ω] [Add ω] [Div ω] [NatCast ω] {final final' : Tables ω}
    {input : UpdateInput ω} (h : updateIndex final input = .ok final') :
    EntityIndex.Merges final.entityIndex input.delta.entityIndex final'.entityIndex := by
  obtain ⟨oldEntities, newEntities, merged, mapping, -, -, -, summaries, -, oldUnits, newUnits,
    units, hold, hnew, hmerge, -, -, -, holdUnits, hnewUnits, hunits, hentities, -, hfinal⟩ :=
    (updateIndex_ok h).graph
  refine ⟨merged, mapping, summaries, ?_⟩
  simp only [Tables.entityIndex, hold, hnew, holdUnits, hnewUnits, hentities, hfinal, rowsOf_some]
  exact ⟨hmerge, hunits, trivial⟩

/-- Updates merge the entities and text units, one after the other. -/
theorem updateSystem_refines [Zero ω] [Add ω] [Div ω] [NatCast ω] :
    System.Refines (updateSystem fun tables : Tables ω => tables.entityIndex.Standard)
      EntityIndex.mergeSystem Tables.entityIndex where
  init _ h := h
  step _ input _ _ hstep :=
    Or.inr ⟨input.delta.entityIndex, hstep.1, updateIndex_merges hstep.2⟩

/-- **Entity references stay closed.**  After any number of merges, and of updates, of indexes that
standard runs have left, every entity id in the text units is the id of an entity; each merge
rewrites the delta ids of the titles that existed to the surviving ids and keeps all others. -/
theorem updateIndex_keeps_entity_references [Zero ω] [Add ω] [Div ω] [NatCast ω] :
    (∀ previous, EntityIndex.mergeSystem.Reachable previous → previous.Closed ∧
      ∀ delta final, EntityIndex.mergeSystem.step previous delta final →
        final.Closed ∧ EntityIndex.KeepsTextUnits previous delta final) ∧
    (∀ previous : Tables ω,
      (updateSystem fun tables => tables.entityIndex.Standard).Reachable previous →
      previous.entityIndex.Closed ∧
      ∀ input final, (updateSystem fun tables => tables.entityIndex.Standard).step previous input
          final → final.entityIndex.Closed ∧
        EntityIndex.KeepsTextUnits previous.entityIndex input.delta.entityIndex
          final.entityIndex) := by
  have hmerges : ∀ previous, EntityIndex.mergeSystem.Reachable previous → previous.Closed ∧
      ∀ delta final, EntityIndex.mergeSystem.step previous delta final →
        final.Closed ∧ EntityIndex.KeepsTextUnits previous delta final := by
    intro previous hprevious
    have hcoherent : previous.Coherent := EntityIndex.coherent_of_reachable hprevious
    refine ⟨hcoherent.closed, fun delta final hstep => ⟨hstep.2.closed hcoherent hstep.1, ?_⟩⟩
    exact hstep.2.keepsTextUnits hcoherent.titles_unique hstep.1
  refine ⟨hmerges, fun previous hprevious => ?_⟩
  obtain ⟨hclosed, hstep⟩ := hmerges _ (updateSystem_refines.reachable hprevious)
  exact ⟨hclosed, fun input final h => hstep _ _ ⟨h.1, updateIndex_merges h.2⟩⟩

/-! ### A sample update -/

/-- A table of entities with these ids, human-readable ids and titles. -/
def sampleEntities (rows : List (String × ℤ × String)) : List EntityRecord :=
  rows.map fun (id, humanReadableId, title) =>
    { id
      humanReadableId
      title
      entityType := "person"
      description := .string ""
      textUnitIds := .list []
      frequency := 0
      degree := 0 }

/-- A text unit with these entity, relationship and covariate ids. -/
def sampleTextUnit (id : String) (humanReadableId : ℤ)
    (entityIds relationshipIds covariateIds : List String) : TextUnitRecord where
  id := id
  humanReadableId := humanReadableId
  text := ""
  nTokens := 0
  documentId := "document"
  entityIds := .list entityIds
  relationshipIds := .list relationshipIds
  covariateIds := .list covariateIds

/-- Tables with these entities and text units and nothing else. -/
def sampleTables (entities : List EntityRecord) (textUnits : List TextUnitRecord) : Tables ℕ where
  documents := some []
  entities := some entities
  relationships := some []
  textUnits := some textUnits
  communities := some []
  communityReports := some []

/-- A delta with these tables, without summaries. -/
def sampleInput {ω : Type} (delta : Tables ω) : UpdateInput ω where
  delta := delta
  summarizeEntities _ := .ok []
  summarizeRelationships _ := .ok []

/-- One of two delta entities exists already, and its id is rewritten. -/
theorem updateIndex_keeps_entity_references_sample :
    (sampleTables (sampleEntities [("old-a", 0, "A"), ("new-b", 2, "B")])
      [sampleTextUnit "old" 0 ["old-a"] [] [],
        sampleTextUnit "new" 1 ["old-a", "new-b"] [] []]).entityIndex.Closed := by
  refine ((updateIndex_keeps_entity_references.2
    (sampleTables (sampleEntities [("old-a", 0, "A")]) [sampleTextUnit "old" 0 ["old-a"] [] []])
    (.init ⟨⟨by decide, ?_⟩, by decide⟩)).2
    (sampleInput (sampleTables (sampleEntities [("new-a", 0, "A"), ("new-b", 1, "B")])
      [sampleTextUnit "new" 0 ["new-a", "new-b"] [] []])) _ ⟨⟨⟨by decide, ?_⟩, by decide⟩, rfl⟩).1
  · unfold EntityIndex.Closed
    decide
  · unfold EntityIndex.Closed
    decide

end GraphLoom.Update

/-! ## References of communities and to relationships -/

namespace GraphLoom.Update

/-- The tables that refer to each other. -/
structure ReferenceIndex (ω : Type) extends EntityIndex where
  relationships : List (RelationshipRecord ω)
  communities : List CommunityRecord
deriving DecidableEq

end GraphLoom.Update

namespace GraphLoom.Tables

def referenceIndex {ω : Type} (tables : Tables ω) : Update.ReferenceIndex ω where
  toEntityIndex := tables.entityIndex
  relationships := rowsOf tables.relationships
  communities := rowsOf tables.communities

end GraphLoom.Tables

namespace GraphLoom.Update

open Foundation

variable {ω : Type}

namespace ReferenceIndex

def entityIds (index : ReferenceIndex ω) : List String := index.entities.map EntityRecord.id

def relationshipIds (index : ReferenceIndex ω) : List String :=
  index.relationships.map RelationshipRecord.id

/-- Every relationship id in the text units and communities, and every entity id in the
communities, is the id of a row. -/
structure Closed (index : ReferenceIndex ω) : Prop where
  textUnits : ∀ row ∈ index.textUnits, ∀ id ∈ row.relationshipIds.toStringList,
    id ∈ index.relationshipIds
  communities : ∀ row ∈ index.communities, ∀ id ∈ row.relationshipIds.toStringList,
    id ∈ index.relationshipIds
  communityEntities : ∀ row ∈ index.communities, ∀ id ∈ row.entityIds.toStringList,
    id ∈ index.entityIds

/-- An index as a standard run leaves it. -/
structure Standard (index : ReferenceIndex ω) : Prop extends
    EntityIndex.Standard index.toEntityIndex, Closed index where
  endpoints_unique : (index.relationships.map RelationshipRecord.endpoints).Nodup
  relationshipIds_unique : index.relationshipIds.Nodup
  sources_known : ∀ record ∈ index.relationships,
    record.source ∈ index.entities.map EntityRecord.title
  targets_known : ∀ record ∈ index.relationships,
    record.target ∈ index.entities.map EntityRecord.title

variable [Zero ω] [Add ω] [Div ω] [NatCast ω]

/-- The four merges, of entities, relationships, text units and communities. -/
def Merges (previous delta final : ReferenceIndex ω) : Prop :=
  ∃ mergedEntities mapping entitySummaries mergedRelationships relationshipSummaries
      communityMapping,
    mergeEntities previous.entities delta.entities = .ok (mergedEntities, mapping) ∧
    mergeRelationships previous.relationships delta.relationships
      (mergedEntities.map MergedEntityRow.title) = .ok mergedRelationships ∧
    mergeTextUnits previous.textUnits delta.textUnits mapping = .ok final.textUnits ∧
    mergeCommunities previous.communities delta.communities =
      .ok (final.communities, communityMapping) ∧
    final.entities = summarizedEntitiesDataframe mergedEntities entitySummaries ∧
    final.relationships =
      summarizedRelationshipsDataframe mergedRelationships relationshipSummaries

variable {previous delta final : ReferenceIndex ω}

/-- A relationship id resolves, or is that of a delta relationship that was absorbed: a previous one
with its source and target stands for both. -/
def ResolvesRelationship (previous delta final : ReferenceIndex ω) (id : String) : Prop :=
  id ∈ final.relationshipIds ∨
    ∃ absorbed ∈ delta.relationships, absorbed.id = id ∧
      ∃ old ∈ previous.relationships, old.endpoints = absorbed.endpoints ∧
        ∃ row ∈ final.relationships, row.endpoints = absorbed.endpoints ∧ row.id = old.id

/-- An entity id resolves, or is that of a delta entity that was absorbed: a previous one with its
title stands for both. -/
def ResolvesEntity (previous delta final : ReferenceIndex ω) (id : String) : Prop :=
  id ∈ final.entityIds ∨
    ∃ absorbed ∈ delta.entities, absorbed.id = id ∧
      ∃ old ∈ previous.entities, old.title = absorbed.title ∧
        ∃ row ∈ final.entities, row.title = absorbed.title ∧ row.id = old.id

/-! ### One reference -/

/-- A previous relationship is still there. -/
theorem Merges.previousRelationship (h : Merges previous delta final)
    (hprevious : previous.Standard) {record : RelationshipRecord ω}
    (hrecord : record ∈ previous.relationships) :
    ∃ row ∈ final.relationships, row.endpoints = record.endpoints ∧ row.id = record.id := by
  obtain ⟨mergedEntities, mapping, -, mergedRelationships, summaries, -, hmerge, hmergeR, -, -, -,
    hrelationships⟩ := h
  obtain ⟨merged, hmerged, hkey, hid⟩ := mergeRelationships_previous hmergeR
    hprevious.endpoints_unique hrecord
    (mergeEntities_mem_titles hmerge (Or.inl (hprevious.sources_known record hrecord)))
    (mergeEntities_mem_titles hmerge (Or.inl (hprevious.targets_known record hrecord)))
  obtain ⟨row, hrow, hrowKey, hrowId⟩ := exists_mem_summarizedRelationships hmerged summaries
  exact ⟨row, hrelationships ▸ hrow, hrowKey.trans hkey, hrowId.trans hid⟩

/-- A previous entity is still there. -/
theorem Merges.previousEntity (h : Merges previous delta final) (hprevious : previous.Standard)
    {record : EntityRecord} (hrecord : record ∈ previous.entities) :
    ∃ row ∈ final.entities, row.title = record.title ∧ row.id = record.id := by
  obtain ⟨mergedEntities, mapping, summaries, -, -, -, hmerge, -, -, -, hentities, -⟩ := h
  obtain ⟨merged, hmerged, htitle, hid⟩ :=
    mergeEntities_previous hmerge hprevious.titles_unique hrecord
  obtain ⟨row, hrow, hrowTitle, hrowId⟩ := exists_mem_summarized hmerged summaries
  exact ⟨row, hentities ▸ hrow, hrowTitle.trans htitle, hrowId.trans hid⟩

variable {id : String} (h : Merges previous delta final)
include h

section

variable (hprevious : previous.Standard)
include hprevious

theorem Merges.resolvesRelationship_previous (hid : id ∈ previous.relationshipIds) :
    ResolvesRelationship previous delta final id := by
  obtain ⟨record, hrecord, rfl⟩ := List.mem_map.mp hid
  obtain ⟨row, hrow, -, hrowId⟩ := h.previousRelationship hprevious hrecord
  exact Or.inl (List.mem_map.mpr ⟨row, hrow, hrowId⟩)

theorem Merges.resolvesRelationship_delta (hdelta : delta.Standard)
    (hid : id ∈ delta.relationshipIds) : ResolvesRelationship previous delta final id := by
  obtain ⟨record, hrecord, rfl⟩ := List.mem_map.mp hid
  by_cases hold : record.endpoints ∈ previous.relationships.map RelationshipRecord.endpoints
  · obtain ⟨old, hmem, hkey⟩ := List.mem_map.mp hold
    obtain ⟨row, hrow, hrowKey, hrowId⟩ := h.previousRelationship hprevious hmem
    exact Or.inr ⟨record, hrecord, rfl, old, hmem, hkey, row, hrow, hrowKey.trans hkey, hrowId⟩
  · obtain ⟨mergedEntities, mapping, -, mergedRelationships, summaries, -, hmerge, hmergeR, -, -, -,
      hrelationships⟩ := h
    obtain ⟨merged, hmerged, -, hmergedId⟩ := mergeRelationships_delta hmergeR
      hdelta.endpoints_unique hrecord hold
      (mergeEntities_mem_titles hmerge (Or.inr (hdelta.sources_known record hrecord)))
      (mergeEntities_mem_titles hmerge (Or.inr (hdelta.targets_known record hrecord)))
    obtain ⟨row, hrow, -, hrowId⟩ := exists_mem_summarizedRelationships hmerged summaries
    exact Or.inl (List.mem_map.mpr ⟨row, hrelationships ▸ hrow, hrowId.trans hmergedId⟩)

theorem Merges.resolvesEntity_previous (hid : id ∈ previous.entityIds) :
    ResolvesEntity previous delta final id := by
  obtain ⟨record, hrecord, rfl⟩ := List.mem_map.mp hid
  obtain ⟨row, hrow, -, hrowId⟩ := h.previousEntity hprevious hrecord
  exact Or.inl (List.mem_map.mpr ⟨row, hrow, hrowId⟩)

theorem Merges.resolvesEntity_delta (hdelta : delta.Standard)
    (hid : id ∈ delta.entityIds) : ResolvesEntity previous delta final id := by
  obtain ⟨record, hrecord, rfl⟩ := List.mem_map.mp hid
  by_cases hold : record.title ∈ previous.entities.map EntityRecord.title
  · obtain ⟨old, hmem, htitle⟩ := List.mem_map.mp hold
    obtain ⟨row, hrow, hrowTitle, hrowId⟩ := h.previousEntity hprevious hmem
    exact Or.inr
      ⟨record, hrecord, rfl, old, hmem, htitle, row, hrow, hrowTitle.trans htitle, hrowId⟩
  · obtain ⟨mergedEntities, mapping, summaries, -, -, -, hmerge, -, -, -, hentities, -⟩ := h
    obtain ⟨merged, hmerged, -, -, hstays⟩ := mergeEntities_delta hmerge hprevious.titles_unique
      hdelta.titles_unique hdelta.ids_unique hrecord
    obtain ⟨row, hrow, -, hrowId⟩ := exists_mem_summarized hmerged summaries
    exact Or.inl (List.mem_map.mpr ⟨row, hentities ▸ hrow, hrowId.trans (hstays hold)⟩)

end

/-! ### All references -/

/-- The relationship ids of the merged text units are those of both indexes. -/
theorem Merges.textUnit {row : TextUnitRecord}
    (hrow : row ∈ final.textUnits) : ∃ row' ∈ previous.textUnits ++ delta.textUnits,
      row.relationshipIds = row'.relationshipIds := by
  obtain ⟨-, mapping, -, -, -, -, -, -, hunits, -⟩ := h
  obtain ⟨rebased, hrebased, hfinal⟩ := mergeTextUnits_ok hunits
  rw [hfinal] at hrow
  rcases List.mem_append.mp hrow with hrow | hrow
  · exact ⟨row, List.mem_append_left _ hrow, rfl⟩
  · obtain ⟨newRow, hnewRow, rfl⟩ := List.mem_map.mp hrow
    obtain ⟨deltaRow, hdeltaRow, hsame⟩ := forall₂_exists_left hrebased hnewRow
    refine ⟨deltaRow, List.mem_append_right _ hdeltaRow, ?_⟩
    show newRow.relationshipIds = deltaRow.relationshipIds
    rw [hsame]
    rfl

/-- The entity and relationship ids of the merged communities are those of both indexes. -/
theorem Merges.community {row : CommunityRecord}
    (hrow : row ∈ final.communities) : ∃ row' ∈ previous.communities ++ delta.communities,
      row.entityIds = row'.entityIds ∧ row.relationshipIds = row'.relationshipIds := by
  obtain ⟨-, mapping, -, -, -, communityMapping, -, -, -, hcommunities, -⟩ := h
  have hmem := List.mem_map_of_mem (f := fun row => (row.entityIds, row.relationshipIds)) hrow
  rw [mergeCommunities_references hcommunities] at hmem
  obtain ⟨row', hrow', heq⟩ := List.mem_map.mp hmem
  exact ⟨row', hrow', (congrArg Prod.fst heq).symm, (congrArg Prod.snd heq).symm⟩

end ReferenceIndex

open ReferenceIndex

variable [Zero ω] [Add ω] [Div ω] [NatCast ω] {previous delta final : ReferenceIndex ω}

/-- An update merges the tables that refer to each other. -/
theorem updateIndex_mergesReferences {final final' : Tables ω} {input : UpdateInput ω}
    (h : updateIndex final input = .ok final') :
    Merges final.referenceIndex input.delta.referenceIndex final'.referenceIndex := by
  obtain ⟨oldEntities, newEntities, mergedEntities, mapping, oldRelationships, newRelationships,
    mergedRelationships, entitySummaries, relationshipSummaries, oldUnits, newUnits, units, hold,
    hnew, hmerge, holdR, hnewR, hmergeR, holdUnits, hnewUnits, hunits, hentities, hrelationships,
    hfinal⟩ := (updateIndex_ok h).graph
  obtain ⟨oldC, newC, mergedC, -, -, communityMapping, holdC, hnewC, hmergeC, -, -, hcommunities,
    -⟩ := (updateIndex_ok h).communities
  refine ⟨mergedEntities, mapping, entitySummaries, mergedRelationships, relationshipSummaries,
    communityMapping, ?_⟩
  simp only [Tables.referenceIndex, Tables.entityIndex, hold, hnew, holdR, hnewR, holdUnits,
    hnewUnits, holdC, hnewC, hentities, hrelationships, hfinal, hcommunities, rowsOf_some]
  exact ⟨hmerge, hmergeR, hunits, hmergeC, trivial, trivial⟩

/-- **References resolve unless what they refer to was absorbed.** -/
theorem merge_resolves_references (hprevious : previous.Standard) (hdelta : delta.Standard)
    (h : Merges previous delta final) :
    (∀ row ∈ final.textUnits, ∀ id ∈ row.relationshipIds.toStringList,
      ResolvesRelationship previous delta final id) ∧
    (∀ row ∈ final.communities, ∀ id ∈ row.relationshipIds.toStringList,
      ResolvesRelationship previous delta final id) ∧
    ∀ row ∈ final.communities, ∀ id ∈ row.entityIds.toStringList,
      ResolvesEntity previous delta final id := by
  refine ⟨fun row hrow id hid => ?_, fun row hrow id hid => ?_, fun row hrow id hid => ?_⟩
  · obtain ⟨row', hrow', hids⟩ := h.textUnit hrow
    rw [hids] at hid
    rcases List.mem_append.mp hrow' with hrow' | hrow'
    · exact h.resolvesRelationship_previous hprevious (hprevious.textUnits row' hrow' id hid)
    · exact h.resolvesRelationship_delta hprevious hdelta (hdelta.textUnits row' hrow' id hid)
  · obtain ⟨row', hrow', -, hids⟩ := h.community hrow
    rw [hids] at hid
    rcases List.mem_append.mp hrow' with hrow' | hrow'
    · exact h.resolvesRelationship_previous hprevious (hprevious.communities row' hrow' id hid)
    · exact h.resolvesRelationship_delta hprevious hdelta (hdelta.communities row' hrow' id hid)
  · obtain ⟨row', hrow', hids, -⟩ := h.community hrow
    rw [hids] at hid
    rcases List.mem_append.mp hrow' with hrow' | hrow'
    · exact h.resolvesEntity_previous hprevious (hprevious.communityEntities row' hrow' id hid)
    · exact h.resolvesEntity_delta hprevious hdelta (hdelta.communityEntities row' hrow' id hid)

/-! ### A sample merge -/

/-- Two entities that are related, with a text unit and a community of both. -/
def sampleReferences (entities : List EntityRecord) (relationships : List (RelationshipRecord ℚ))
    (textUnits : List TextUnitRecord) (communities : List CommunityRecord) :
    ReferenceIndex ℚ where
  entities := entities
  textUnits := textUnits
  relationships := relationships
  communities := communities

/-- A relationship from `A` to `B`. -/
def sampleRelationship (id : String) (weight : ℚ) (combinedDegree : ℤ) : RelationshipRecord ℚ where
  id := id
  humanReadableId := 0
  source := "A"
  target := "B"
  description := .string ""
  weight := weight
  combinedDegree := combinedDegree
  textUnitIds := .list []

/-- A community without a parent. -/
def sampleCommunity (id : String) (community : ℤ) (entityIds relationshipIds : List String) :
    CommunityRecord where
  id := id
  humanReadableId := community
  community := some community
  level := 0
  parent := some (-1)
  children := []
  title := "Community " ++ toString community
  entityIds := .list entityIds
  relationshipIds := .list relationshipIds
  textUnitIds := .list []
  period := none
  size := none

def samplePrevious : ReferenceIndex ℚ :=
  sampleReferences (sampleEntities [("old-a", 0, "A"), ("old-b", 1, "B")])
    [sampleRelationship "old-ab" 2 2]
    [sampleTextUnit "old" 0 ["old-a", "old-b"] ["old-ab"] []]
    [sampleCommunity "old" 0 ["old-a", "old-b"] ["old-ab"]]

/-- The same entities and relationship, found again in a new document. -/
def sampleDelta : ReferenceIndex ℚ :=
  sampleReferences (sampleEntities [("new-a", 0, "A"), ("new-b", 1, "B")])
    [sampleRelationship "new-ab" 4 2]
    [sampleTextUnit "new" 0 ["new-a", "new-b"] ["new-ab"] []]
    [sampleCommunity "new" 0 ["new-a", "new-b"] ["new-ab"]]

def sampleFinal : ReferenceIndex ℚ :=
  sampleReferences (sampleEntities [("old-a", 0, "A"), ("old-b", 1, "B")])
    [sampleRelationship "old-ab" ((0 + 2 + 4) / (2 : ℕ)) 2]
    [sampleTextUnit "old" 0 ["old-a", "old-b"] ["old-ab"] [],
      sampleTextUnit "new" 1 ["old-a", "old-b"] ["new-ab"] []]
    [sampleCommunity "old" 0 ["old-a", "old-b"] ["old-ab"],
      sampleCommunity "new" 1 ["new-a", "new-b"] ["new-ab"]]

theorem samplePrevious_standard : samplePrevious.Standard where
  titles_unique := by decide
  closed := by unfold EntityIndex.Closed; decide
  ids_unique := by decide
  textUnits := by decide
  communities := by decide
  communityEntities := by decide
  endpoints_unique := by decide
  relationshipIds_unique := by decide
  sources_known := by decide
  targets_known := by decide

theorem sampleDelta_standard : sampleDelta.Standard where
  titles_unique := by decide
  closed := by unfold EntityIndex.Closed; decide
  ids_unique := by decide
  textUnits := by decide
  communities := by decide
  communityEntities := by decide
  endpoints_unique := by decide
  relationshipIds_unique := by decide
  sources_known := by decide
  targets_known := by decide

theorem sample_merges : Merges samplePrevious sampleDelta sampleFinal :=
  ⟨_, _, [], _, [], _, rfl, rfl, rfl, rfl, rfl, rfl⟩

/-- The references of the second document are kept, to rows that were absorbed. -/
theorem merge_resolves_references_sample :
    (∀ row ∈ sampleFinal.textUnits, ∀ id ∈ row.relationshipIds.toStringList,
      ResolvesRelationship samplePrevious sampleDelta sampleFinal id) ∧
    (∀ row ∈ sampleFinal.communities, ∀ id ∈ row.relationshipIds.toStringList,
      ResolvesRelationship samplePrevious sampleDelta sampleFinal id) ∧
    ∀ row ∈ sampleFinal.communities, ∀ id ∈ row.entityIds.toStringList,
      ResolvesEntity samplePrevious sampleDelta sampleFinal id :=
  merge_resolves_references samplePrevious_standard sampleDelta_standard sample_merges

/-- Some references do not resolve: here none of the three kinds is closed. -/
theorem merge_leaves_orphans :
    samplePrevious.Standard ∧ sampleDelta.Standard ∧
      Merges samplePrevious sampleDelta sampleFinal ∧
      ¬ (∀ row ∈ sampleFinal.textUnits, ∀ id ∈ row.relationshipIds.toStringList,
        id ∈ sampleFinal.relationshipIds) ∧
      ¬ (∀ row ∈ sampleFinal.communities, ∀ id ∈ row.relationshipIds.toStringList,
        id ∈ sampleFinal.relationshipIds) ∧
      ¬ ∀ row ∈ sampleFinal.communities, ∀ id ∈ row.entityIds.toStringList,
        id ∈ sampleFinal.entityIds :=
  ⟨samplePrevious_standard, sampleDelta_standard, sample_merges, by decide, by decide, by decide⟩

end GraphLoom.Update
