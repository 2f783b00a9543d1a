import GraphLoom.Foundation.Table
import GraphLoom.Update.Merge

/-!
# What the merges compute

One lemma for each merge says what its result is when it succeeds; the others read off it which row
of a merged table stands for a row of the previous or the delta table (`mergeEntities_survivor`,
`mergeRelationships_survivor`) and what an entity id is rewritten to (`remapEntityId_of_mem`).
-/

namespace GraphLoom.Update

open Foundation

variable {ω : Type}

/-! ### Human-readable ids -/

section HumanReadableIds

variable {ρ α : Type} [HumanReadable ρ] {initialId : ℤ} {rows rows' : List ρ}

/-- The rows differ in the human-readable id only. -/
def SameContents (row row' : ρ) : Prop := row' = withHumanReadableId (humanReadableId row') row

theorem offsetId_ok {index : ℕ} {id : ℤ} (h : offsetId initialId index = .ok id) :
    id = initialId + index ∧ id ≤ i64Max := by
  unfold offsetId at h
  obtain ⟨offset, hoffset, h⟩ := bind_eq_ok.mp h
  rw [usizeToI64_eq_ok_iff] at hoffset
  rw [okOr_eq_ok_iff, checkedAdd_eq_some_iff] at h
  omega

theorem initialHumanReadableId_ok {message : String}
    (h : initialHumanReadableId message rows = .ok initialId) :
    initialId = maxHumanReadableId rows + 1 ∧ initialId ≤ i64Max := by
  rw [initialHumanReadableId, okOr_eq_ok_iff, checkedAdd_eq_some_iff] at h
  omega

section

variable (h : rebaseIds initialId rows = .ok rows')
include h

/-- The rows are numbered from the initial id on. -/
theorem rebaseIds_ok :
    rows' = rows.zipIdx.map fun p => withHumanReadableId (initialId + p.2) p.1 := by
  rw [rebaseIds, mapM_eq_ok_iff] at h
  rw [← List.forall₂_eq_eq_eq, List.forall₂_map_right_iff]
  refine (h.imp fun p row' hrow' => ?_).flip
  obtain ⟨id, hid, hrow'⟩ := bind_eq_ok.mp hrow'
  show row' = withHumanReadableId (initialId + p.2) p.1
  rw [← (offsetId_ok hid).1]
  exact (Except.ok.inj hrow').symm

theorem rebaseIds_sameContents : List.Forall₂ SameContents rows rows' := by
  have hrows : rows.zipIdx.map Prod.fst = rows := List.zipIdx_map_fst 0 rows
  rw [rebaseIds_ok h]
  nth_rewrite 1 [← hrows]
  rw [List.forall₂_map_left_iff, List.forall₂_map_right_iff, List.forall₂_same]
  intro p _
  simp [SameContents]

/-- What does not read the human-readable id is as before. -/
theorem rebaseIds_map {f : ρ → α}
    (hf : ∀ i row, f (withHumanReadableId i row) = f row) : rows'.map f = rows.map f := by
  have hrows : rows.zipIdx.map Prod.fst = rows := List.zipIdx_map_fst 0 rows
  rw [rebaseIds_ok h, List.map_map]
  nth_rewrite 2 [← hrows]
  rw [List.map_map]
  exact List.map_congr_left fun p _ => hf _ p.1

end

theorem concatenateWithRebasedIds_ok {previous delta merged : List ρ}
    (h : concatenateWithRebasedIds previous delta = .ok merged) :
    ∃ rebased, merged = previous ++ rebased ∧ List.Forall₂ SameContents delta rebased := by
  unfold concatenateWithRebasedIds at h
  obtain ⟨initialId, -, h⟩ := bind_eq_ok.mp h
  obtain ⟨rebased, hrebased, h⟩ := bind_eq_ok.mp h
  exact ⟨rebased, (Except.ok.inj h).symm, rebaseIds_sameContents hrebased⟩

end HumanReadableIds

/-! ### Entities -/

section Entities

variable {previousRows deltaRows : List EntityTableRow}

/-- The last previous id with a title. -/
def lastPreviousId (previousRows : List EntityTableRow) (title : String) : Option String :=
  ((previousRows.filter fun row => row.title = title).getLast?).map EntityTableRow.id

theorem lookup_foldl_insert (mapping : IdMapping) (k k' : String) (ids : List String) :
    (ids.foldl (fun mapping id => mapping.insert k id) mapping).lookup k' =
      if k' = k then (ids.getLast?).or (mapping.lookup k) else mapping.lookup k' := by
  induction ids using List.reverseRecOn with
  | nil =>
    split
    · next h => rw [h]; rfl
    · rfl
  | append_singleton ids id ih =>
    rw [List.foldl_append, List.foldl_cons, List.foldl_nil]
    split
    · next h =>
      rw [h, AList.lookup_insert, List.getLast?_concat, Option.some_or]
    · next h =>
      rw [AList.lookup_insert_ne h, ih]
      simp only [h, if_false]

theorem lookup_previousIds (previousRows : List EntityTableRow) (title : String) :
    (previousIds previousRows).lookup title =
      ((groupBy EntityTableRow.title previousRows).lookup title).map (·.map EntityTableRow.id) :=
  lookup_map_snd (List.map EntityTableRow.id) _ title

/-- The last delta row with an id and a known title decides what the id is rewritten to. -/
theorem lookup_entityIdMapping_append_singleton (previousRows rows : List EntityTableRow)
    (row : EntityTableRow) (id : String) :
    (entityIdMapping previousRows (rows ++ [row])).lookup id =
      if id = row.id then
        (lastPreviousId previousRows row.title).or ((entityIdMapping previousRows rows).lookup id)
      else (entityIdMapping previousRows rows).lookup id := by
  have hstep : entityIdMapping previousRows (rows ++ [row]) =
      ((previousIds previousRows).lookup row.title).elim (entityIdMapping previousRows rows)
        fun ids => ids.foldl (fun mapping id => mapping.insert row.id id)
          (entityIdMapping previousRows rows) := by
    rw [entityIdMapping, List.foldl_concat]
    cases (previousIds previousRows).lookup row.title <;> rfl
  rw [hstep, lookup_previousIds, lookup_groupBy, lastPreviousId]
  by_cases hnil : previousRows.filter (fun r => decide (r.title = row.title)) = []
  · rw [hnil]
    simp
  · simp only [hnil, if_false, Option.map_some, Option.elim_some, lookup_foldl_insert,
      List.getLast?_map]
    split
    · next h => rw [h]
    · rfl

theorem lookup_entityIdMapping_of_not_mem {id : String}
    (hid : id ∉ deltaRows.map EntityTableRow.id) :
    (entityIdMapping previousRows deltaRows).lookup id = none := by
  induction deltaRows using List.reverseRecOn with
  | nil => rfl
  | append_singleton rows row ih =>
    rw [List.map_append, List.mem_append, not_or] at hid
    have hne : id ≠ row.id := fun h => hid.2 (by rw [h]; exact List.mem_singleton.mpr rfl)
    rw [lookup_entityIdMapping_append_singleton, ite_cond_eq_false _ _ (eq_false hne)]
    exact ih hid.1

section

variable (hids : (deltaRows.map EntityTableRow.id).Nodup)
include hids

/-- What a delta id is looked up to. -/
theorem lookup_entityIdMapping {row : EntityTableRow} (hrow : row ∈ deltaRows) :
    (entityIdMapping previousRows deltaRows).lookup row.id =
      lastPreviousId previousRows row.title := by
  induction deltaRows using List.reverseRecOn with
  | nil => exact absurd hrow List.not_mem_nil
  | append_singleton rows last ih =>
    rw [List.map_append, List.map_singleton, List.nodup_append] at hids
    obtain ⟨hrows, -, hdisjoint⟩ := hids
    rw [lookup_entityIdMapping_append_singleton]
    rcases List.mem_append.mp hrow with hrow | hrow
    · have hne : row.id ≠ last.id :=
        hdisjoint _ (List.mem_map_of_mem hrow) _ (List.mem_singleton.mpr rfl)
      rw [ite_cond_eq_false _ _ (eq_false hne)]
      exact ih hrows hrow
    · obtain rfl := List.mem_singleton.mp hrow
      have hfresh : row.id ∉ rows.map EntityTableRow.id := fun h =>
        hdisjoint _ h _ (List.mem_singleton.mpr rfl) rfl
      rw [ite_cond_eq_true _ _ (eq_true rfl), lookup_entityIdMapping_of_not_mem hfresh,
        Option.or_none]

/-- A delta id whose title exists is rewritten to the previous id with that title. -/
theorem remapEntityId_of_mem
    (htitles : (previousRows.map EntityTableRow.title).Nodup) {row previousRow : EntityTableRow}
    (hrow : row ∈ deltaRows) (hprevious : previousRow ∈ previousRows)
    (htitle : previousRow.title = row.title) :
    remapEntityId (entityIdMapping previousRows deltaRows) row.id = previousRow.id := by
  have hfilter : previousRows.filter (fun r => r.title = row.title) = [previousRow] :=
    Table.filter_eq_singleton htitles hprevious fun r _ => by simp [htitle]
  rw [remapEntityId, lookup_entityIdMapping hids hrow, lastPreviousId, hfilter]
  rfl

/-- A delta id whose title is new stays. -/
theorem remapEntityId_of_not_mem {row : EntityTableRow} (hrow : row ∈ deltaRows)
    (htitle : row.title ∉ previousRows.map EntityTableRow.title) :
    remapEntityId (entityIdMapping previousRows deltaRows) row.id = row.id := by
  have hfilter : previousRows.filter (fun r => r.title = row.title) = [] := by
    rw [List.filter_eq_nil_iff]
    intro r hr hrt
    exact htitle (List.mem_map.mpr ⟨r, hr, of_decide_eq_true hrt⟩)
  rw [remapEntityId, lookup_entityIdMapping hids hrow, lastPreviousId, hfilter]
  rfl

end

theorem resolveEntityGroup_ok {title : String} {rows : List EntityTableRow}
    {row : MergedEntityRow} (h : resolveEntityGroup title rows = .ok row) :
    ∃ first, rows.head? = some first ∧ row = {
      id := first.id
      humanReadableId := first.humanReadableId
      title := title
      entityType := first.entityType
      descriptions := rows.flatMap EntityTableRow.descriptions
      textUnitIds := rows.flatMap EntityTableRow.textUnitIds
      frequency := (rows.flatMap EntityTableRow.textUnitIds).length
      degree := first.degree } := by
  unfold resolveEntityGroup at h
  obtain ⟨first, hfirst, h⟩ := bind_eq_ok.mp h
  obtain ⟨frequency, hfrequency, h⟩ := bind_eq_ok.mp h
  rw [usizeToI64_eq_ok_iff] at hfrequency
  rw [okOr_eq_ok_iff] at hfirst
  refine ⟨first, hfirst, ?_⟩
  rw [← hfrequency.1]
  exact (Except.ok.inj h).symm

variable {previous delta : List EntityRecord} {merged : List MergedEntityRow}
  {mapping : IdMapping}

/-- The merged rows are the resolved groups of the previous and the renumbered delta rows. -/
theorem mergeEntities_ok (h : mergeEntities previous delta = .ok (merged, mapping)) :
    mapping = entityIdMapping (readEntities previous) (readEntities delta) ∧
    ∃ initialId deltaRows,
      initialHumanReadableId "entity human_readable_id overflow" previous = .ok initialId ∧
      rebaseIds initialId (readEntities delta) = .ok deltaRows ∧
      Table.Decodes (fun group => resolveEntityGroup group.1 group.2)
        (groupBy EntityTableRow.title (readEntities previous ++ deltaRows)) merged := by
  unfold mergeEntities at h
  obtain ⟨initialId, hinitial, h⟩ := bind_eq_ok.mp h
  obtain ⟨deltaRows, hdelta, h⟩ := bind_eq_ok.mp h
  obtain ⟨resolved, hresolved, h⟩ := bind_eq_ok.mp h
  cases Except.ok.inj h
  exact ⟨rfl, initialId, deltaRows, hinitial, hdelta, mapM_eq_ok_iff.mp hresolved⟩

/-- The titles of the merged rows are in strictly increasing order. -/
theorem mergeEntities_titles_sorted (h : mergeEntities previous delta = .ok (merged, mapping)) :
    (merged.map MergedEntityRow.title).Pairwise (· < ·) := by
  obtain ⟨-, initialId, deltaRows, -, -, hmerged⟩ := mergeEntities_ok h
  have htitles : (groupBy EntityTableRow.title (readEntities previous ++ deltaRows)).map Prod.fst =
      merged.map MergedEntityRow.title := by
    refine hmerged.map_eq fun group row hrow => ?_
    obtain ⟨first, -, rfl⟩ := resolveEntityGroup_ok hrow
    rfl
  rw [← htitles, List.pairwise_map]
  exact groupBy_sorted _ _

theorem readEntities_map_id (rows : List EntityRecord) :
    (readEntities rows).map EntityTableRow.id = rows.map EntityRecord.id := by
  rw [readEntities, List.map_map]
  rfl

theorem readEntities_map_title (rows : List EntityRecord) :
    (readEntities rows).map EntityTableRow.title = rows.map EntityRecord.title := by
  rw [readEntities, List.map_map]
  rfl

/-- Finding the id of the first row with a title needs the titles and ids only. -/
theorem find?_title_map_id {rows : List EntityTableRow} {records : List EntityRecord}
    (h : rows.map (fun row => (row.title, row.id)) =
      records.map fun record => (record.title, record.id)) (title : String) :
    (rows.find? fun row => row.title = title).map EntityTableRow.id =
      (records.find? fun record => record.title = title).map EntityRecord.id := by
  have hfind := congrArg (fun pairs => (pairs.find? fun p => p.1 = title).map Prod.snd) h
  simpa only [List.find?_map, Option.map_map, Function.comp_def] using hfind

variable (h : mergeEntities previous delta = .ok (merged, mapping))
include h

/-- A merged row has the id of the first row with its title. -/
theorem mergeEntities_id {row : MergedEntityRow} (hrow : row ∈ merged) :
    ((previous ++ delta).find? fun r => r.title = row.title).map EntityRecord.id =
      some row.id := by
  obtain ⟨-, initialId, deltaRows, -, hdelta, hmerged⟩ := mergeEntities_ok h
  obtain ⟨⟨title, group⟩, hgroup, hresolve⟩ := forall₂_exists_left hmerged hrow
  obtain ⟨first, hfirst, rfl⟩ := resolveEntityGroup_ok hresolve
  obtain ⟨rfl, -⟩ := (mem_groupBy_iff _ _).mp hgroup
  have hpairs : (readEntities previous ++ deltaRows).map (fun row => (row.title, row.id)) =
      (previous ++ delta).map fun record => (record.title, record.id) := by
    rw [List.map_append, List.map_append,
      rebaseIds_map hdelta (f := fun row => (row.title, row.id)) fun _ _ => rfl, readEntities,
      readEntities, List.map_map, List.map_map]
    rfl
  rw [← find?_title_map_id hpairs, ← List.head?_filter, hfirst]
  rfl

/-- Every title has a merged row. -/
theorem mergeEntities_exists
    {title : String} (htitle : title ∈ (previous ++ delta).map EntityRecord.title) :
    ∃ row ∈ merged, row.title = title := by
  obtain ⟨-, initialId, deltaRows, -, hdelta, hmerged⟩ := mergeEntities_ok h
  have htitles : (readEntities previous ++ deltaRows).map EntityTableRow.title =
      (previous ++ delta).map EntityRecord.title := by
    rw [List.map_append, List.map_append, rebaseIds_map hdelta fun _ _ => rfl,
      readEntities_map_title, readEntities_map_title]
  rw [← htitles, ← mem_keys_groupBy_iff] at htitle
  obtain ⟨group, hgroup, rfl⟩ := List.mem_map.mp htitle
  obtain ⟨row, hrow, hresolve⟩ := forall₂_exists_right hmerged hgroup
  obtain ⟨first, -, rfl⟩ := resolveEntityGroup_ok hresolve
  exact ⟨_, hrow, rfl⟩

/-- The titles of both tables are titles of the merged rows. -/
theorem mergeEntities_mem_titles
    {title : String} (htitle : title ∈ previous.map EntityRecord.title ∨
      title ∈ delta.map EntityRecord.title) : title ∈ merged.map MergedEntityRow.title := by
  rw [← List.mem_append, ← List.map_append] at htitle
  obtain ⟨row, hrow, rfl⟩ := mergeEntities_exists h htitle
  exact List.mem_map_of_mem hrow

/-- A previous row survives with its id. -/
theorem mergeEntities_previous
    (htitles : (previous.map EntityRecord.title).Nodup) {record : EntityRecord}
    (hrecord : record ∈ previous) :
    ∃ row ∈ merged, row.title = record.title ∧ row.id = record.id := by
  have htitle : record.title ∈ (previous ++ delta).map EntityRecord.title :=
    List.mem_map_of_mem (List.mem_append_left _ hrecord)
  obtain ⟨row, hrow, hrt⟩ := mergeEntities_exists h htitle
  have hid := mergeEntities_id h hrow
  rw [hrt, Table.find?_append_of_nodup htitles hrecord] at hid
  exact ⟨row, hrow, hrt, (Option.some.inj hid).symm⟩

/-- **What a delta entity id is rewritten to** is the id of the merged row with its title, and is
the same id when the title is new. -/
theorem mergeEntities_delta (htitles : (previous.map EntityRecord.title).Nodup)
    (hdeltaTitles : (delta.map EntityRecord.title).Nodup)
    (hdeltaIds : (delta.map EntityRecord.id).Nodup) {record : EntityRecord}
    (hrecord : record ∈ delta) :
    ∃ row ∈ merged, row.title = record.title ∧ remapEntityId mapping record.id = row.id ∧
      (record.title ∉ previous.map EntityRecord.title → row.id = record.id) := by
  have htitle : record.title ∈ (previous ++ delta).map EntityRecord.title :=
    List.mem_map_of_mem (List.mem_append_right _ hrecord)
  obtain ⟨row, hrow, hrt⟩ := mergeEntities_exists h htitle
  have hid := mergeEntities_id h hrow
  obtain ⟨rfl, -⟩ := mergeEntities_ok h
  rw [← readEntities_map_id] at hdeltaIds
  have hread : _ ∈ readEntities delta := List.mem_map_of_mem hrecord
  refine ⟨row, hrow, hrt, ?_⟩
  by_cases hold : record.title ∈ previous.map EntityRecord.title
  · obtain ⟨old, hmem, hot⟩ := List.mem_map.mp hold
    rw [hrt, ← hot, Table.find?_append_of_nodup htitles hmem] at hid
    rw [← readEntities_map_title] at htitles
    have hreadOld : _ ∈ readEntities previous := List.mem_map_of_mem hmem
    refine ⟨?_, fun hnew => absurd hold hnew⟩
    rw [← Option.some.inj hid]
    exact remapEntityId_of_mem hdeltaIds htitles hread hreadOld hot
  · have hfind : delta.find? (fun r => r.title = record.title) = some record :=
      (Table.find?_key_eq_some_iff hdeltaTitles).mpr ⟨hrecord, rfl⟩
    rw [hrt, Table.find?_append_of_not_mem hold, hfind] at hid
    have hrow : row.id = record.id := (Option.some.inj hid).symm
    refine ⟨?_, fun _ => hrow⟩
    rw [hrow]
    rw [← readEntities_map_title] at hold
    exact remapEntityId_of_not_mem hdeltaIds hread hold

end Entities

/-! ### Relationships -/

variable {row : MergedRelationshipRow ω}

section Relationships

variable {previous delta : List (RelationshipRecord ω)} {entityTitles : List String}
  {merged : List (MergedRelationshipRow ω)}

theorem find?_key_map_id {rows : List (RelationshipTableRow ω)}
    {records : List (RelationshipRecord ω)}
    (h : rows.map (fun row => ((row.source, row.target), row.id)) =
      records.map fun record => ((record.source, record.target), record.id))
    (key : String × String) :
    (rows.find? fun row => row.key = toLex key).map RelationshipTableRow.id =
      (records.find? fun record => record.endpoints = key).map RelationshipRecord.id := by
  have hfind := congrArg (fun pairs => (pairs.find? fun p => p.1 = key).map Prod.snd) h
  show _ = (records.find? fun record => (record.source, record.target) = key).map
    RelationshipRecord.id
  simpa only [List.find?_map, Option.map_map, Function.comp_def, RelationshipTableRow.key,
    EmbeddingLike.apply_eq_iff_eq] using hfind

theorem read_append_rebase_map (previous : List (RelationshipRecord ω)) {initialId : ℤ}
    {deltaRows : List (RelationshipTableRow ω)}
    (hdelta : rebaseIds initialId (readRelationships delta) = .ok deltaRows) :
    (readRelationships previous ++ deltaRows).map (fun row => ((row.source, row.target), row.id)) =
      (previous ++ delta).map fun record => ((record.source, record.target), record.id) := by
  rw [List.map_append, List.map_append,
    rebaseIds_map hdelta (f := fun row => ((row.source, row.target), row.id)) fun _ _ => rfl,
    readRelationships, readRelationships, List.map_map, List.map_map]
  rfl

variable [Zero ω] [Add ω] [Div ω] [NatCast ω]

theorem mergeRelationshipGroup_ok {source target : String} {rows : List (RelationshipTableRow ω)}
    (h : mergeRelationshipGroup source target rows = .ok row) :
    ∃ first, rows.head? = some first ∧ row = {
      id := first.id
      humanReadableId := first.humanReadableId
      source := source
      target := target
      descriptions := rows.flatMap RelationshipTableRow.descriptions
      textUnitIds := rows.flatMap RelationshipTableRow.textUnitIds
      weight := rows.foldl (fun weight row => weight + row.weight) 0 / (rows.length : ω)
      combinedDegree := 0 } := by
  unfold mergeRelationshipGroup at h
  obtain ⟨first, hfirst, h⟩ := bind_eq_ok.mp h
  rw [okOr_eq_ok_iff] at hfirst
  refine ⟨first, hfirst, ?_⟩
  dsimp only at h
  split_ifs at h
  exact (Except.ok.inj h).symm

/-- The merged rows are the merged groups whose source and target are known titles. -/
theorem mergeRelationships_ok (h : mergeRelationships previous delta entityTitles = .ok merged) :
    ∃ initialId deltaRows unfiltered,
      initialHumanReadableId "relationship human_readable_id overflow" previous = .ok initialId ∧
      rebaseIds initialId (readRelationships delta) = .ok deltaRows ∧
      Table.Decodes (fun group =>
          mergeRelationshipGroup (ofLex group.1).1 (ofLex group.1).2 group.2)
        (groupBy RelationshipTableRow.key (readRelationships previous ++ deltaRows)) unfiltered ∧
      merged = (withCombinedDegrees unfiltered).filter fun row =>
        row.source ∈ entityTitles ∧ row.target ∈ entityTitles := by
  unfold mergeRelationships at h
  obtain ⟨initialId, hinitial, h⟩ := bind_eq_ok.mp h
  obtain ⟨deltaRows, hdelta, h⟩ := bind_eq_ok.mp h
  obtain ⟨unfiltered, hunfiltered, h⟩ := bind_eq_ok.mp h
  exact ⟨initialId, deltaRows, unfiltered, hinitial, hdelta, mapM_eq_ok_iff.mp hunfiltered,
    (Except.ok.inj h).symm⟩

/-- A merged row has the id of the first row with its source and target. -/
theorem mergeRelationships_id (h : mergeRelationships previous delta entityTitles = .ok merged)
    (hrow : row ∈ merged) :
    ((previous ++ delta).find? fun r => r.endpoints = (row.source, row.target)).map
      RelationshipRecord.id = some row.id := by
  obtain ⟨initialId, deltaRows, unfiltered, -, hdelta, hmerged, rfl⟩ := mergeRelationships_ok h
  obtain ⟨unfilteredRow, hunfiltered, rfl⟩ := List.mem_map.mp (List.mem_filter.mp hrow).1
  obtain ⟨⟨key, group⟩, hgroup, hmerge⟩ := forall₂_exists_left hmerged hunfiltered
  obtain ⟨first, hfirst, rfl⟩ := mergeRelationshipGroup_ok hmerge
  obtain ⟨rfl, -⟩ := (mem_groupBy_iff _ _).mp hgroup
  rw [← find?_key_map_id (read_append_rebase_map previous hdelta), ← List.head?_filter]
  exact congrArg (Option.map RelationshipTableRow.id) hfirst

variable {record : RelationshipRecord ω}
  (h : mergeRelationships previous delta entityTitles = .ok merged)
include h

/-- Every pair of known titles that is related has a merged row. -/
theorem mergeRelationships_exists (hrecord : record ∈ previous ++ delta)
    (hsource : record.source ∈ entityTitles) (htarget : record.target ∈ entityTitles) :
    ∃ row ∈ merged, row.source = record.source ∧ row.target = record.target := by
  obtain ⟨initialId, deltaRows, unfiltered, -, hdelta, hmerged, rfl⟩ := mergeRelationships_ok h
  have hkeys := congrArg (List.map Prod.fst) (read_append_rebase_map previous hdelta)
  rw [List.map_map, List.map_map] at hkeys
  have hkey : (record.source, record.target) ∈
      (readRelationships previous ++ deltaRows).map fun row => (row.source, row.target) := by
    have hmem := List.mem_map_of_mem
      (f := Prod.fst ∘ fun record => ((record.source, record.target), record.id)) hrecord
    rwa [← hkeys] at hmem
  obtain ⟨row, hrow, hrowKey⟩ := List.mem_map.mp hkey
  obtain ⟨unfilteredRow, hunfiltered, hmerge⟩ :=
    forall₂_exists_right hmerged (exists_mem_groupBy RelationshipTableRow.key hrow)
  obtain ⟨first, -, heq⟩ := mergeRelationshipGroup_ok hmerge
  have hendpoints : unfilteredRow.source = record.source ∧ unfilteredRow.target = record.target := by
    rw [heq]
    exact Prod.ext_iff.mp hrowKey
  refine ⟨_, List.mem_filter.mpr ⟨List.mem_map_of_mem hunfiltered, ?_⟩, hendpoints⟩
  rw [decide_eq_true_eq]
  exact ⟨hendpoints.1 ▸ hsource, hendpoints.2 ▸ htarget⟩

/-- The first row of two known titles survives with its id. -/
theorem mergeRelationships_first
    (hfirst : (previous ++ delta).find? (fun r => r.endpoints = record.endpoints) = some record)
    (hsource : record.source ∈ entityTitles) (htarget : record.target ∈ entityTitles) :
    ∃ row ∈ merged, (row.source, row.target) = record.endpoints ∧ row.id = record.id := by
  obtain ⟨row, hrow, hrs, hrt⟩ :=
    mergeRelationships_exists h (List.mem_of_find?_eq_some hfirst) hsource htarget
  have hkey : (row.source, row.target) = record.endpoints := Prod.ext hrs hrt
  have hid := mergeRelationships_id h hrow
  rw [hkey, hfirst] at hid
  exact ⟨row, hrow, hkey, (Option.some.inj hid).symm⟩

/-- A previous row with known titles survives with its id. -/
theorem mergeRelationships_previous (hkeys : (previous.map RelationshipRecord.endpoints).Nodup)
    (hrecord : record ∈ previous) (hsource : record.source ∈ entityTitles)
    (htarget : record.target ∈ entityTitles) :
    ∃ row ∈ merged, (row.source, row.target) = record.endpoints ∧ row.id = record.id :=
  mergeRelationships_first h (Table.find?_append_of_nodup hkeys hrecord delta) hsource htarget

/-- A delta row with known titles and a new source and target survives with its id. -/
theorem mergeRelationships_delta (hkeys : (delta.map RelationshipRecord.endpoints).Nodup)
    (hrecord : record ∈ delta) (hnew : record.endpoints ∉ previous.map RelationshipRecord.endpoints)
    (hsource : record.source ∈ entityTitles) (htarget : record.target ∈ entityTitles) :
    ∃ row ∈ merged, (row.source, row.target) = record.endpoints ∧ row.id = record.id := by
  refine mergeRelationships_first h ?_ hsource htarget
  rw [Table.find?_append_of_not_mem hnew]
  exact (Table.find?_key_eq_some_iff hkeys).mpr ⟨hrecord, rfl⟩

end Relationships

/-! ### Summaries -/

theorem summarized_map_title (merged : List MergedEntityRow)
    (summaries : List SummarizedEntityRow) :
    (summarizedEntitiesDataframe merged summaries).map EntityRecord.title =
      merged.map MergedEntityRow.title := by
  unfold summarizedEntitiesDataframe
  rw [List.map_map]
  rfl

theorem summarized_map_id (merged : List MergedEntityRow) (summaries : List SummarizedEntityRow) :
    (summarizedEntitiesDataframe merged summaries).map EntityRecord.id =
      merged.map MergedEntityRow.id := by
  unfold summarizedEntitiesDataframe
  rw [List.map_map]
  rfl

theorem exists_mem_summarized {merged : List MergedEntityRow} {row : MergedEntityRow}
    (hrow : row ∈ merged) (summaries : List SummarizedEntityRow) :
    ∃ record ∈ summarizedEntitiesDataframe merged summaries,
      record.title = row.title ∧ record.id = row.id := by
  unfold summarizedEntitiesDataframe
  exact ⟨_, List.mem_map_of_mem hrow, rfl, rfl⟩

theorem exists_mem_summarizedRelationships {merged : List (MergedRelationshipRow ω)}
    (hrow : row ∈ merged)
    (summaries : List (SummarizedRelationshipRow ω)) :
    ∃ record ∈ summarizedRelationshipsDataframe merged summaries,
      record.endpoints = (row.source, row.target) ∧ record.id = row.id := by
  unfold summarizedRelationshipsDataframe
  exact ⟨_, List.mem_map_of_mem hrow, rfl, rfl⟩

/-! ### Text units and communities -/

theorem mergeTextUnits_ok {previous delta merged : List TextUnitRecord} {mapping : IdMapping}
    (h : mergeTextUnits previous delta mapping = .ok merged) :
    ∃ rebased, List.Forall₂ SameContents delta rebased ∧
      merged = previous ++ rebased.map (remapEntityIds mapping) := by
  unfold mergeTextUnits at h
  obtain ⟨initialId, -, h⟩ := bind_eq_ok.mp h
  obtain ⟨rebased, hrebased, h⟩ := bind_eq_ok.mp h
  exact ⟨rebased, rebaseIds_sameContents hrebased, (Except.ok.inj h).symm⟩

theorem remapEntityIds_toStringList (mapping : IdMapping) (row : TextUnitRecord) :
    (remapEntityIds mapping row).entityIds.toStringList =
      row.entityIds.toStringList.map (remapEntityId mapping) := by
  unfold remapEntityIds
  cases row.entityIds <;> rfl

/-- Merged communities refer to the ids that they referred to. -/
theorem mergeCommunities_references {previous delta merged : List CommunityRecord}
    {mapping : CommunityMapping} (h : mergeCommunities previous delta = .ok (merged, mapping)) :
    merged.map (fun row => (row.entityIds, row.relationshipIds)) =
      (previous ++ delta).map fun row => (row.entityIds, row.relationshipIds) := by
  unfold mergeCommunities at h
  obtain ⟨mapping, -, h⟩ := bind_eq_ok.mp h
  cases Except.ok.inj h
  rw [List.map_map, List.map_append, List.map_append, List.map_map]
  rfl

end GraphLoom.Update
