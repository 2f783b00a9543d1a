import GraphLoom.Graph.Extraction

/-!
## Correctness of the merge of extracted records

* `mergeEntities_groups` and `mergeRelationships_groups`: every distinct key has one row, in
  first-seen order, and the row holds what the records with the key say, in their order.
* `mergeExtracted_spec`: a merged graph has exactly the records of the text units, without the
  relationships whose endpoints are no entity titles.
-/

namespace GraphLoom.Graph

open Foundation

variable {ω : Type}

/-! ### What a row stands for -/

/-- The row of an entity holds all records with its title and type, in their order. -/
structure IsEntityGroup (records : List RawEntityRow) (key : String × String) (entity : EntityRow) :
    Prop where
  keyEq : (entity.title, entity.entityType) = key
  description : entity.description =
    (rowsOfKey RawEntityRow.key records key).map RawEntityRow.description
  textUnitIds : entity.textUnitIds =
    (rowsOfKey RawEntityRow.key records key).map RawEntityRow.sourceId
  frequency : entity.frequency = min i64Max (rowsOfKey RawEntityRow.key records key).length

/-- The row of a relationship holds all records with its source and target, in their order; its
weight is their sum. -/
structure IsRelationshipGroup [Add ω] (records : List (RawRelationshipRow ω))
    (key : String × String) (relationship : RelationshipRow ω) : Prop where
  keyEq : (relationship.source, relationship.target) = key
  description : relationship.description =
    (rowsOfKey RawRelationshipRow.key records key).map RawRelationshipRow.description
  textUnitIds : relationship.textUnitIds =
    (rowsOfKey RawRelationshipRow.key records key).map RawRelationshipRow.sourceId
  weight : ∃ first rest,
    (rowsOfKey RawRelationshipRow.key records key).map RawRelationshipRow.weight = first :: rest ∧
      relationship.weight = rest.foldl (· + ·) first

/-- The records of an entity row. -/
def EntityRow.records (entity : EntityRow) : List RawEntityRow :=
  (entity.description.zip entity.textUnitIds).map fun record =>
    ⟨entity.title, entity.entityType, record.1, record.2⟩

/-- The source, target, description and text unit of the records of a relationship row. -/
def RelationshipRow.records (relationship : RelationshipRow ω) :
    List (String × String × String × String) :=
  (relationship.description.zip relationship.textUnitIds).map fun record =>
    (relationship.source, relationship.target, record.1, record.2)

/-- What `RelationshipRow.records` keeps of a record. -/
def RawRelationshipRow.record (row : RawRelationshipRow ω) : String × String × String × String :=
  (row.source, row.target, row.description, row.sourceId)

/-- The graph of the records of the text units, in the order of the text units. -/
structure IsMergedGraph [Add ω] (extracted : List (RawRecords ω)) (graph : ExtractedGraph ω) :
    Prop where
  entities : List.Forall₂ (IsEntityGroup (extracted.flatMap Prod.fst))
    ((extracted.flatMap Prod.fst).map RawEntityRow.key).eraseDups graph.entities
  /-- The relationships are those of the records whose endpoints are entity titles. -/
  relationships : ∃ kept : List (RawRelationshipRow ω),
    kept = (extracted.flatMap Prod.snd).filter (fun row =>
      row.source ∈ graph.entities.map EntityRow.title ∧
        row.target ∈ graph.entities.map EntityRow.title) ∧
    List.Forall₂ (IsRelationshipGroup kept) (kept.map RawRelationshipRow.key).eraseDups
      graph.relationships ∧
    (graph.relationships.flatMap RelationshipRow.records).Perm (kept.map RawRelationshipRow.record)
  /-- Every entity record is in one row, once. -/
  entityRecords : (graph.entities.flatMap EntityRow.records).Perm (extracted.flatMap Prod.fst)
  /-- No relationship is an orphan. -/
  endpoints : ∀ relationship ∈ graph.relationships,
    relationship.source ∈ graph.entities.map EntityRow.title ∧
      relationship.target ∈ graph.entities.map EntityRow.title

/-! ### Folding the records of one key -/

/-- Counting one more keeps a count within the 64-bit range. -/
theorem saturatingAdd_count (n : ℕ) :
    saturatingAdd (min i64Max n) 1 = min i64Max ((n + 1 : ℕ) : ℤ) := by
  unfold saturatingAdd i64Max i64Min
  omega

theorem foldl_entityPush (row : RawEntityRow) (rows : List RawEntityRow) :
    rows.foldl EntityRow.push (EntityRow.new row) =
      { title := row.title
        entityType := row.entityType
        description := (row :: rows).map RawEntityRow.description
        textUnitIds := (row :: rows).map RawEntityRow.sourceId
        frequency := min i64Max ((row :: rows).length : ℤ) } := by
  induction rows using List.reverseRecOn with
  | nil =>
    show EntityRow.new row = _
    have hone : min i64Max ((([row] : List RawEntityRow).length : ℕ) : ℤ) = 1 := rfl
    rw [hone]
    rfl
  | append_singleton rows last ih =>
    rw [List.foldl_append, List.foldl_cons, List.foldl_nil, ih, EntityRow.push]
    have hcount : (row :: (rows ++ [last])).length = (row :: rows).length + 1 := by simp
    rw [hcount, ← saturatingAdd_count]
    simp

theorem foldl_relationshipPush [Add ω] (row : RawRelationshipRow ω)
    (rows : List (RawRelationshipRow ω)) :
    rows.foldl RelationshipRow.push (RelationshipRow.new row) =
      { source := row.source
        target := row.target
        description := (row :: rows).map RawRelationshipRow.description
        textUnitIds := (row :: rows).map RawRelationshipRow.sourceId
        weight := (rows.map RawRelationshipRow.weight).foldl (· + ·) row.weight } := by
  induction rows using List.reverseRecOn with
  | nil => rfl
  | append_singleton rows last ih =>
    rw [List.foldl_append, List.foldl_cons, List.foldl_nil, ih, RelationshipRow.push]
    simp [List.foldl_append]

/-! ### The merged rows -/

/-- A group that a key has comes from a first record with the key and the later ones. -/
theorem foldGroup_eq_some {ρ κ γ : Type*} [DecidableEq κ] {key : ρ → κ} {new : ρ → γ}
    {push : γ → ρ → γ} {rows : List ρ} {k : κ} {group : γ}
    (h : foldGroup new push (rowsOfKey key rows k) = some group) :
    ∃ row rest, rowsOfKey key rows k = row :: rest ∧ key row = k ∧
      group = rest.foldl push (new row) := by
  cases hrows : rowsOfKey key rows k with
  | nil =>
    rw [hrows] at h
    exact absurd h.symm (Option.some_ne_none _)
  | cons row rest =>
    rw [hrows] at h
    have hmem : row ∈ rowsOfKey key rows k := by
      rw [hrows]
      exact List.mem_cons_self ..
    have hkey : key row = k := by simpa using (List.mem_filter.mp hmem).2
    exact ⟨row, rest, rfl, hkey, (Option.some.inj h).symm⟩

/-- **Every entity has one row, in first-seen order.** -/
theorem mergeEntities_groups (records : List RawEntityRow) :
    List.Forall₂ (IsEntityGroup records) (records.map RawEntityRow.key).eraseDups
      (mergeEntities records) := by
  refine (mergeFirstSeen_groups RawEntityRow.key EntityRow.new EntityRow.push records).imp ?_
  intro k entity h
  obtain ⟨row, rest, hrows, hkey, rfl⟩ := foldGroup_eq_some h
  rw [foldl_entityPush]
  constructor
  · exact hkey
  · rw [hrows]
  · rw [hrows]
  · rw [hrows]

/-- **Every relationship has one row, in first-seen order.** -/
theorem mergeRelationships_groups [Add ω] (records : List (RawRelationshipRow ω)) :
    List.Forall₂ (IsRelationshipGroup records) (records.map RawRelationshipRow.key).eraseDups
      (mergeRelationships records) := by
  refine (mergeFirstSeen_groups RawRelationshipRow.key RelationshipRow.new RelationshipRow.push
    records).imp ?_
  intro k relationship h
  obtain ⟨row, rest, hrows, hkey, rfl⟩ := foldGroup_eq_some h
  rw [foldl_relationshipPush]
  constructor
  · exact hkey
  · rw [hrows]
  · rw [hrows]
  · exact ⟨row.weight, rest.map RawRelationshipRow.weight, by rw [hrows, List.map_cons], rfl⟩

/-- The records with one key, put together from what the row of the key holds. -/
theorem IsEntityGroup.records_eq {records : List RawEntityRow} {key : String × String}
    {entity : EntityRow} (h : IsEntityGroup records key entity) :
    entity.records = rowsOfKey RawEntityRow.key records key := by
  have hkeys : ∀ row ∈ rowsOfKey RawEntityRow.key records key,
      (⟨entity.title, entity.entityType, row.description, row.sourceId⟩ : RawEntityRow) = row := by
    intro row hrow
    have hkey : row.key = key := by simpa using (List.mem_filter.mp hrow).2
    obtain ⟨htitle, htype⟩ := Prod.mk.inj (h.keyEq.trans hkey.symm)
    rw [htitle, htype]
  rw [EntityRow.records, h.description, h.textUnitIds, List.zip_map', List.map_map]
  exact List.map_congr_left hkeys |>.trans (List.map_id _)

theorem IsRelationshipGroup.records_eq [Add ω] {records : List (RawRelationshipRow ω)}
    {key : String × String} {relationship : RelationshipRow ω}
    (h : IsRelationshipGroup records key relationship) :
    relationship.records =
      (rowsOfKey RawRelationshipRow.key records key).map RawRelationshipRow.record := by
  have hkeys : ∀ row ∈ rowsOfKey RawRelationshipRow.key records key,
      (relationship.source, relationship.target, row.description, row.sourceId) = row.record := by
    intro row hrow
    have hkey : row.key = key := by simpa using (List.mem_filter.mp hrow).2
    obtain ⟨hsource, htarget⟩ := Prod.mk.inj (h.keyEq.trans hkey.symm)
    rw [hsource, htarget]
    rfl
  rw [RelationshipRow.records, h.description, h.textUnitIds, List.zip_map', List.map_map]
  exact List.map_congr_left hkeys

/-- Corresponding groups hold the same records. -/
theorem flatMap_eq_of_forall₂ {α β γ : Type*} {R : α → β → Prop} {f : α → List γ} {g : β → List γ}
    {xs : List α} {ys : List β} (h : List.Forall₂ R xs ys) (hR : ∀ x y, R x y → g y = f x) :
    ys.flatMap g = xs.flatMap f := by
  induction h with
  | nil => rfl
  | cons hxy _ ih => rw [List.flatMap_cons, List.flatMap_cons, hR _ _ hxy, ih]

/-! ### Orphans -/

/-- Dropping the orphans of the merged relationships is merging the records that are no orphans. -/
theorem filterOrphanRelationships_groups [Add ω] (records : List (RawRelationshipRow ω))
    (entities : List EntityRow) (kept : List (RawRelationshipRow ω))
    (hkept : kept = records.filter fun row =>
      row.source ∈ entities.map EntityRow.title ∧ row.target ∈ entities.map EntityRow.title) :
    List.Forall₂ (IsRelationshipGroup kept) (kept.map RawRelationshipRow.key).eraseDups
      (filterOrphanRelationships (mergeRelationships records) entities) := by
  -- whether a record is kept depends on its key only
  let keeps : String × String → Bool := fun key =>
    key.1 ∈ entities.map EntityRow.title ∧ key.2 ∈ entities.map EntityRow.title
  have hkept' : kept = records.filter fun row => keeps row.key := hkept
  have hkeys : (kept.map RawRelationshipRow.key).eraseDups =
      (records.map RawRelationshipRow.key).eraseDups.filter keeps := by
    rw [← eraseDups_filter, List.filter_map, hkept']
    rfl
  have hrows : ∀ key, keeps key = true →
      rowsOfKey RawRelationshipRow.key kept key = rowsOfKey RawRelationshipRow.key records key := by
    intro key hkey
    rw [hkept', rowsOfKey, rowsOfKey, List.filter_filter]
    refine List.filter_congr fun row _ => ?_
    by_cases hrow : row.key = key
    · rw [hrow, hkey, Bool.and_true]
    · simp [hrow]
  have hgroups : List.Forall₂ (fun key group => key = (group.source, group.target) ∧
      IsRelationshipGroup records key group) (records.map RawRelationshipRow.key).eraseDups
        (mergeRelationships records) :=
    (mergeRelationships_groups records).imp fun key group h => ⟨h.keyEq.symm, h⟩
  rw [hkeys, filterOrphanRelationships]
  have hfilter := List.rel_filter (p := keeps) (q := fun relationship : RelationshipRow ω =>
    decide (relationship.source ∈ entities.map EntityRow.title ∧
      relationship.target ∈ entities.map EntityRow.title)) (fun key group h => by rw [h.1]) hgroups
  have hkeeps : ∀ key ∈ (records.map RawRelationshipRow.key).eraseDups.filter keeps,
      keeps key = true := fun key hkey => (List.mem_filter.mp hkey).2
  generalize (records.map RawRelationshipRow.key).eraseDups.filter keeps = keys at hfilter hkeeps ⊢
  generalize (mergeRelationships records).filter _ = groups at hfilter ⊢
  induction hfilter with
  | nil => exact .nil
  | @cons key group keys groups hgroup _ ih =>
    refine .cons ?_ (ih fun key hkey => hkeeps key (List.mem_cons_of_mem _ hkey))
    have heq := hrows key (hkeeps key (List.mem_cons_self ..))
    constructor
    · exact hgroup.2.keyEq
    · rw [heq]
      exact hgroup.2.description
    · rw [heq]
      exact hgroup.2.textUnitIds
    · rw [heq]
      exact hgroup.2.weight

/-- **A merged graph is the graph of its records.** -/
theorem mergeExtracted_spec [Add ω] {extracted : List (RawRecords ω)} {graph : ExtractedGraph ω}
    (h : mergeExtracted extracted = .ok graph) : IsMergedGraph extracted graph := by
  unfold mergeExtracted at h
  simp only at h
  split at h
  · exact absurd h (by simp)
  · split at h
    · exact absurd h (by simp)
    · obtain rfl := Except.ok.inj h
      have hentities := mergeEntities_groups (extracted.flatMap Prod.fst)
      have hrelationships := filterOrphanRelationships_groups (extracted.flatMap Prod.snd)
        (mergeEntities (extracted.flatMap Prod.fst)) _ rfl
      constructor
      · exact hentities
      · refine ⟨_, rfl, hrelationships, ?_⟩
        rw [flatMap_eq_of_forall₂ hrelationships fun key group hgroup => hgroup.records_eq]
        rw [← List.map_flatMap]
        exact (flatMap_rowsOfKey_perm RawRelationshipRow.key _).map _
      · rw [flatMap_eq_of_forall₂ hentities fun key group hgroup => hgroup.records_eq]
        exact flatMap_rowsOfKey_perm RawEntityRow.key _
      · intro relationship hrelationship
        simpa using (List.mem_filter.mp hrelationship).2

end GraphLoom.Graph
