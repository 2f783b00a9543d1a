import GraphLoom.Foundation.FirstSeen
import GraphLoom.Query.Equiv.IndexerAdapters
import GraphLoom.Query.IndexTables
import Mathlib

/-!
# Reading the tables of an index

Tables whose cells are as an index has them are read without an error, and what is read are their
rows: all entities with their communities, the communities that have a report, and the reports up to
a level.  The titles of communities name their numbers, so rolling up by title leaves no community
out.
-/

namespace GraphLoom.Query

open Foundation

/-! ### Cells -/

def EntityCells (row : EntityRecord) : Prop :=
  ∃ description textUnitIds, row.description = .string description ∧
    row.textUnitIds = .list textUnitIds

def CommunityCells (row : CommunityRecord) : Prop :=
  ∃ community parent entityIds, row.community = some community ∧ row.parent = some parent ∧
    row.entityIds = .list entityIds ∧ row.title = "Community " ++ toString community

/-- The report has a community, which is on its level. -/
def ReportCells (communities : List CommunityRecord) (report : CommunityReportRecord F64) : Prop :=
  report.rank.isFinite = true ∧ ∃ row ∈ communities, ∃ community, row.community = some community ∧
    report.community = some community ∧ row.level = report.level

/-! ### Columns -/

section Columns

variable {entities : List EntityRecord} {communities : List CommunityRecord}
  {reports : List (CommunityReportRecord F64)} {ρ : Type} {rows : List ρ}

theorem stringListType_matches :
    columnTypeMatches (stringListType rows) "list<string>" = true ∧
      columnTypeMatches (stringListType rows) "nullable string or list<string>" = true := by
  unfold stringListType
  cases rows.isEmpty
  · decide
  · decide

/-- A frame of rows has the columns of its fields. -/
theorem hasColumn_ofRows {fields : List (RowField ρ)} {name : String} {dtype : DataType}
    {value : ρ → AnyValue}
    (h : fields.find? (fun field => name == field.name) = some ⟨name, dtype, value⟩) :
    HasColumn (DataFrame.ofRows fields rows) rows name dtype value :=
  ⟨DataFrame.column_ofRows h⟩

theorem hasColumns_ofRows {fields : List (RowField ρ)} {schema : List (String × String)}
    (h : (schema.all fun (name, expected) =>
      (fields.find? fun field => name == field.name).any fun field =>
        columnTypeMatches field.dtype expected) = true) :
    HasColumns (DataFrame.ofRows fields rows) schema := by
  intro entry hentry
  have hany := List.all_eq_true.mp h entry hentry
  dsimp only at hany
  rw [Option.any_eq_true] at hany
  obtain ⟨field, hfield, htype⟩ := hany
  exact ⟨_, DataFrame.column_ofRows hfield, htype⟩

theorem validateSchema_entities (method : SearchMethod) :
    validateSchema (entitiesFrame entities) method "entities"
      [("id", "string"), ("title", "string")]
      [("human_readable_id", "nullable string or integer"), ("type", "nullable string"),
        ("description", "nullable string"), ("degree", "nullable integer"),
        ("text_unit_ids", "nullable string or list<string>")] = .ok () :=
  validateSchema_ok (hasColumns_ofRows (by cases entities <;> rfl))
    (hasColumns_ofRows (by cases entities <;> rfl))

theorem communities_community (communities : List CommunityRecord) :
    HasColumn (communitiesFrame communities) communities "community" .int64
      fun row => nullable .int64 row.community := hasColumn_ofRows rfl

theorem communities_level (communities : List CommunityRecord) :
    HasColumn (communitiesFrame communities) communities "level" .int64
      fun row => .int64 row.level := hasColumn_ofRows rfl

theorem communities_title (communities : List CommunityRecord) :
    HasColumn (communitiesFrame communities) communities "title" .string
      fun row => .string row.title := hasColumn_ofRows rfl

theorem communityReports_community (reports : List (CommunityReportRecord F64)) :
    HasColumn (communityReportsFrame reports) reports "community" .int64
      fun row => nullable .int64 row.community := hasColumn_ofRows rfl

end Columns

/-! ### Entities -/

/-- The communities up to a level that list an entity id, in ascending order; `-1` for none. -/
def communityIdsOf (communities : List CommunityRecord) (level : ℤ) (id : String) : List String :=
  let ids := sortedSet ((communities.filter fun row =>
    row.level ≤ level ∧ id ∈ row.entityIds.toStringList).filterMap CommunityRecord.community)
  if ids = [] then ["-1"] else ids.map toString

/-- An entity with its communities. -/
def adaptedEntity (communities : List CommunityRecord) (level : ℤ) (row : EntityRecord) :
    IndexerEntity where
  id := row.id
  shortId := some (toString row.humanReadableId)
  title := row.title
  entityType := some row.entityType
  description := row.description.toStringList.head?
  communityIds := communityIdsOf communities level row.id
  textUnitIds := row.textUnitIds.toStringList
  rank := some row.degree

/-- Every entity id once, with its communities, and every entity when their ids are distinct. -/
structure ReadsEntities (entities : List EntityRecord) (communities : List CommunityRecord)
    (level : ℤ) (rows : List IndexerEntity) : Prop where
  ids : rows.map (fun row => row.id) = (entities.map EntityRecord.id).eraseDups
  of_row : ∀ row ∈ rows, ∃ entity ∈ entities, row = adaptedEntity communities level entity
  distinct : (entities.map EntityRecord.id).Nodup →
    rows = entities.map (adaptedEntity communities level)

section Entities

variable {entities : List EntityRecord} {communities : List CommunityRecord} {level : ℤ}
  {method : SearchMethod}

def membershipOf (row : CommunityRecord) : CommunityMembership :=
  ⟨row.community.getD 0, row.level, row.entityIds.toStringList⟩

theorem communityMemberships_ok (hcells : ∀ row ∈ communities, CommunityCells row) :
    communityMemberships (communitiesFrame communities) method =
      .ok (communities.map membershipOf) := by
  have hcommunity := communities_community communities
  have hlevel := communities_level communities
  have hentityIds : HasColumn (communitiesFrame communities) communities "entity_ids"
      (stringListType communities) fun row => cellValue row.entityIds := hasColumn_ofRows rfl
  refine mapM_range_eq_ok fun i row hrow => ?_
  obtain ⟨community, parent, entityIds, hnumber, -, hids, -⟩ :=
    hcells row (List.mem_of_getElem? hrow)
  rw [hcommunity.requiredI64 hrow (by rw [hnumber]; rfl), hlevel.requiredI64 hrow rfl,
    hentityIds.requiredStringList stringListType_matches.1 hrow (by rw [hids]; rfl), membershipOf,
    hnumber, hids]
  rfl

/-- Sets with the same elements are listed alike. -/
theorem sortedSet_congr {κ : Type} [LinearOrder κ] {xs ys : List κ} (h : ∀ x, x ∈ xs ↔ x ∈ ys) :
    sortedSet xs = sortedSet ys := by
  have hxs := sortedSet_sorted xs
  have hys := sortedSet_sorted ys
  have hperm : (sortedSet xs).Perm (sortedSet ys) := by
    rw [List.perm_ext_iff_of_nodup hxs.nodup hys.nodup]
    intro x
    rw [mem_sortedSet, mem_sortedSet, h x]
  exact hperm.eq_of_pairwise' hxs hys

theorem sortedSet_eq_nil_iff {κ : Type} [LinearOrder κ] {xs : List κ} :
    sortedSet xs = [] ↔ xs = [] := by
  rw [List.eq_nil_iff_forall_not_mem, List.eq_nil_iff_forall_not_mem]
  simp only [mem_sortedSet]

/-- The map of memberships has the communities of each entity id. -/
theorem entityCommunityIds_membershipByEntity (hcells : ∀ row ∈ communities, CommunityCells row)
    (id : String) :
    entityCommunityIds (membershipByEntity level (communities.map membershipOf)) id =
      communityIdsOf communities level id := by
  set members := ((communities.map membershipOf).filter fun row =>
    row.level ≤ level).flatMap fun row => row.entityIds.map fun entityId =>
      (entityId, row.community) with hmembers
  set own := members.filter fun member => member.1 = id with hown
  have hmem : ∀ community, community ∈ own.map Prod.snd ↔
      community ∈ (communities.filter fun row => row.level ≤ level ∧
        id ∈ row.entityIds.toStringList).filterMap CommunityRecord.community := by
    intro community
    simp only [hown, hmembers, List.mem_map, List.mem_filter, List.mem_flatMap, List.mem_filterMap,
      decide_eq_true_eq]
    constructor
    · rintro ⟨member, ⟨⟨row', ⟨⟨row, hrow, rfl⟩, hlevel⟩, entityId, hentityId, rfl⟩, rfl⟩, rfl⟩
      obtain ⟨number, -, -, hnumber, -⟩ := hcells row hrow
      exact ⟨row, ⟨hrow, hlevel, hentityId⟩, by rw [membershipOf, hnumber]; rfl⟩
    · rintro ⟨row, ⟨hrow, hlevel, hid⟩, hcommunity⟩
      refine ⟨(id, community), ⟨⟨membershipOf row, ⟨⟨row, hrow, rfl⟩, hlevel⟩, id, hid, ?_⟩, rfl⟩,
        rfl⟩
      rw [membershipOf, hcommunity]
      rfl
  have hlookup : (membershipByEntity level (communities.map membershipOf)).lookup id =
      if own = [] then none else some (sortedSet (own.map Prod.snd)) := by
    rw [membershipByEntity, lookup_map_snd (fun members : List (String × ℤ) =>
      sortedSet (members.map Prod.snd)), lookup_groupBy]
    split_ifs <;> rfl
  rw [entityCommunityIds, hlookup, communityIdsOf, ← sortedSet_congr hmem]
  by_cases hown' : own = []
  · rw [if_pos hown', hown']
    rfl
  · rw [if_neg hown', if_neg]
    rwa [sortedSet_eq_nil_iff, List.map_eq_nil_iff]

/-- The rows that are read after some entities. -/
structure EntitiesRead (entities : List EntityRecord) (communities : List CommunityRecord)
    (level : ℤ) (state : List String × List IndexerEntity) : Prop where
  seenIds : ∀ id, id ∈ state.1 ↔ id ∈ entities.map EntityRecord.id
  rows : ReadsEntities entities communities level state.2

/-- One entity. -/
def stepEntity (communities : List CommunityRecord) (level : ℤ)
    (state : List String × List IndexerEntity) (row : EntityRecord) :
    List String × List IndexerEntity :=
  if row.id ∈ state.1 then state
  else (row.id :: state.1, state.2 ++ [adaptedEntity communities level row])

theorem EntitiesRead.step {state : List String × List IndexerEntity}
    (h : EntitiesRead entities communities level state) (row : EntityRecord) :
    EntitiesRead (entities ++ [row]) communities level (stepEntity communities level state row) := by
  unfold stepEntity
  by_cases hseen : row.id ∈ state.1
  · have hmem := (h.seenIds _).mp hseen
    rw [if_pos hseen]
    refine ⟨fun id => ?_, ?_, fun r hr => ?_, fun hnodup => ?_⟩
    · rw [h.seenIds, List.map_append, List.mem_append, List.map_singleton, List.mem_singleton]
      constructor
      · exact Or.inl
      · rintro (hid | rfl)
        · exact hid
        · exact hmem
    · rw [h.rows.ids, List.map_append, List.map_singleton, eraseDups_append_of_mem hmem]
    · obtain ⟨entity, hentity, hadapted⟩ := h.rows.of_row r hr
      exact ⟨entity, List.mem_append_left _ hentity, hadapted⟩
    · rw [List.map_append, List.map_singleton, List.nodup_append] at hnodup
      exact absurd rfl (hnodup.2.2 _ hmem _ (List.mem_singleton.mpr rfl))
  · have hmem := mt (h.seenIds _).mpr hseen
    rw [if_neg hseen]
    refine ⟨fun id => ?_, ?_, fun r hr => ?_, fun hnodup => ?_⟩
    · rw [List.mem_cons, h.seenIds, List.map_append, List.mem_append, List.map_singleton,
        List.mem_singleton]
      exact or_comm
    · rw [List.map_append, h.rows.ids, List.map_append, List.map_singleton, List.map_singleton,
        eraseDups_append_of_notMem hmem]
      rfl
    · rcases List.mem_append.mp hr with hr | hr
      · obtain ⟨entity, hentity, hadapted⟩ := h.rows.of_row r hr
        exact ⟨entity, List.mem_append_left _ hentity, hadapted⟩
      · exact ⟨row, List.mem_append_right _ (List.mem_singleton.mpr rfl), List.mem_singleton.mp hr⟩
    · rw [List.map_append, List.nodup_append] at hnodup
      rw [h.rows.distinct hnodup.1, List.map_append]
      rfl

theorem EntitiesRead.foldl (entities : List EntityRecord) :
    EntitiesRead entities communities level
      (entities.foldl (stepEntity communities level) ([], [])) := by
  induction entities using List.reverseRecOn with
  | nil => exact ⟨fun id => Iff.rfl, rfl, fun row hrow => absurd hrow List.not_mem_nil, fun _ => rfl⟩
  | append_singleton entities row ih =>
    rw [List.foldl_append]
    exact ih.step row

/-- **Entities are read with their communities.** -/
theorem readIndexerEntities_ok (hentities : ∀ row ∈ entities, EntityCells row)
    (hcommunities : ∀ row ∈ communities, CommunityCells row) :
    ∃ rows, readIndexerEntities (entitiesFrame entities) (communitiesFrame communities) level
      method = .ok rows ∧ ReadsEntities entities communities level rows := by
  have hid : HasColumn (entitiesFrame entities) entities "id" .string
      fun row => .string row.id := hasColumn_ofRows rfl
  have hshortId : HasColumn (entitiesFrame entities) entities "human_readable_id" .int64
      fun row => .int64 row.humanReadableId := hasColumn_ofRows rfl
  have htitle : HasColumn (entitiesFrame entities) entities "title" .string
      fun row => .string row.title := hasColumn_ofRows rfl
  have htype : HasColumn (entitiesFrame entities) entities "type" .string
      fun row => .string row.entityType := hasColumn_ofRows rfl
  have hdescription : HasColumn (entitiesFrame entities) entities "description" .string
      fun row => cellValue row.description := hasColumn_ofRows rfl
  have htextUnitIds : HasColumn (entitiesFrame entities) entities "text_unit_ids"
      (stringListType entities) fun row => cellValue row.textUnitIds := hasColumn_ofRows rfl
  have hdegree : HasColumn (entitiesFrame entities) entities "degree" .int64
      fun row => .int64 row.degree := hasColumn_ofRows rfl
  have hloop : (List.range entities.length).foldlM
      (readEntityRow (entitiesFrame entities)
        (membershipByEntity level (communities.map membershipOf)) method) ([], []) =
        .ok (entities.foldl (stepEntity communities level) ([], [])) := by
    rw [foldlM_range (g := fun state row => .ok (stepEntity communities level state row))]
    · exact List.foldlM_pure ..
    · intro i row hrow state
      obtain ⟨description, textUnitIds, hdescribed, hunits⟩ :=
        hentities row (List.mem_of_getElem? hrow)
      rw [readEntityRow, hid.requiredString hrow rfl, stepEntity]
      show (if row.id ∈ state.1 then _ else _) = _
      split_ifs
      · rfl
      · rw [hshortId.optionalStringish hrow rfl, htitle.requiredString hrow rfl,
          htype.optionalString hrow rfl,
          hdescription.optionalString hrow (by rw [hdescribed]; rfl),
          htextUnitIds.optionalStringList stringListType_matches.2 hrow (by rw [hunits]; rfl),
          hdegree.optionalI64 hrow rfl, entityCommunityIds_membershipByEntity hcommunities,
          adaptedEntity, hdescribed, hunits]
        rfl
  have hschema : validateSchema (communitiesFrame communities) method "communities"
      [("community", "integer"), ("level", "integer"), ("entity_ids", "list<string>")] [] =
        .ok () :=
    validateSchema_ok (hasColumns_ofRows (by cases communities <;> rfl)) (hasColumns_ofRows rfl)
  refine ⟨_, ?_, (EntitiesRead.foldl entities).rows⟩
  rw [readIndexerEntities, validateSchema_entities, hschema, communityMemberships_ok hcommunities]
  exact congrArg (fun loop => loop >>= fun state => .ok state.2) hloop

end Entities

/-! ### Rolling up by title -/

section Rollup

/-- Titles name the numbers of their communities. -/
def Named (titles : List (String × ℤ)) : Prop :=
  ∀ entry ∈ titles, entry.1 = "Community " ++ toString entry.2

theorem community_title_injective {a b : ℤ}
    (h : "Community " ++ toString a = "Community " ++ toString b) : a = b := by
  rw [String.append_right_inj] at h
  exact Int.repr_inj.mp h

/-- A title that names its number is added, or is there with its number. -/
theorem Named.pushTitleMax {titles : List (String × ℤ)} (h : Named titles) {title : String}
    {community : ℤ} (htitle : title = "Community " ++ toString community) :
    Named (pushTitleMax title community titles) ∧
      ∀ entry, entry ∈ pushTitleMax title community titles ↔
        entry ∈ titles ∨ entry = (title, community) := by
  induction titles with
  | nil =>
    refine ⟨fun entry hentry => ?_, fun entry => ?_⟩
    · rw [List.mem_singleton.mp hentry]
      exact htitle
    · rw [Query.pushTitleMax, List.mem_singleton]
      simp
  | cons other titles ih =>
    obtain ⟨name, largest⟩ := other
    obtain ⟨hother, hrest⟩ := List.forall_mem_cons.mp h
    rw [Query.pushTitleMax]
    split_ifs with hname
    · -- the largest one with the title is the community
      have hlargest : largest = community := by
        refine community_title_injective ?_
        rw [← htitle, ← hname]
        exact hother.symm
      have hsame : max largest community = largest := by rw [hlargest, max_self]
      rw [hsame]
      refine ⟨h, fun entry => ?_⟩
      rw [← hname, ← hlargest, List.mem_cons]
      constructor
      · exact Or.inl
      · rintro (hentry | hentry)
        · exact hentry
        · exact Or.inl hentry
    · obtain ⟨hnamed, hmem⟩ := ih hrest
      refine ⟨List.forall_mem_cons.mpr ⟨hother, hnamed⟩, fun entry => ?_⟩
      rw [List.mem_cons, List.mem_cons, hmem, or_assoc]

theorem mem_titleMax {memberships : List CommunityRollupRow}
    (h : ∀ row ∈ memberships, row.title = "Community " ++ toString row.community) :
    Named (titleMax memberships) ∧ ∀ entry, entry ∈ titleMax memberships ↔
      ∃ row ∈ memberships, entry = (row.title, row.community) := by
  induction memberships using List.reverseRecOn with
  | nil => exact ⟨fun entry hentry => absurd hentry List.not_mem_nil, fun entry => by simp [titleMax]⟩
  | append_singleton memberships row ih =>
    have hlast := h row (List.mem_append_right _ (List.mem_singleton.mpr rfl))
    obtain ⟨hnamed, hmem⟩ := ih fun r hr => h r (List.mem_append_left _ hr)
    obtain ⟨hpushed, hpush⟩ := hnamed.pushTitleMax hlast
    rw [titleMax, List.foldl_append]
    refine ⟨hpushed, fun entry => ?_⟩
    rw [List.foldl_cons, List.foldl_nil]
    refine (hpush entry).trans ?_
    rw [hmem]
    simp only [List.mem_append, List.mem_singleton, or_and_right, exists_or, exists_eq_left]

theorem mem_rollupCommunities {memberships : List CommunityRollupRow} (community : ℤ) :
    community ∈ rollupCommunities memberships ↔
      ∃ entry ∈ titleMax memberships, entry.2 = community := by
  rw [rollupCommunities]
  induction titleMax memberships using List.reverseRecOn generalizing community with
  | nil => simp
  | append_singleton titles entry ih =>
    have hsplit : (∃ other ∈ titles ++ [entry], other.2 = community) ↔
        (∃ other ∈ titles, other.2 = community) ∨ entry.2 = community := by
      simp only [List.mem_append, List.mem_singleton, or_and_right, exists_or, exists_eq_left]
    rw [List.foldl_append, List.foldl_cons, List.foldl_nil, hsplit, ← ih]
    dsimp only
    split_ifs with hmem
    · constructor
      · exact Or.inl
      · rintro (hcommunity | rfl)
        · exact hcommunity
        · exact hmem
    · rw [List.mem_append, List.mem_singleton, eq_comm (a := community)]

end Rollup

/-! ### Reports -/

def adaptedReport (row : CommunityReportRecord F64) : IndexerReport where
  id := row.id
  shortId := toString (row.community.getD 0)
  communityId := toString (row.community.getD 0)
  title := row.title
  summary := row.summary
  fullContent := row.fullContent
  rank := some row.rank

section Reports

variable {communities : List CommunityRecord} {reports : List (CommunityReportRecord F64)}
  {level : ℤ} {method : SearchMethod}

/-- Each row is read as itself, or left out. -/
theorem readRows_ok {α ρ : Type} {frame : DataFrame} {rows : List ρ} {g : ρ → Option α}
    {read : ℕ → Except QueryError (Option α)} (hheight : frame.height = rows.length)
    (h : ∀ i row, rows[i]? = some row → read i = .ok (g row)) :
    readRows frame read = .ok (rows.filterMap g) := by
  rw [readRows, hheight, mapM_range_eq_ok h]
  show Except.ok ((rows.map g).filterMap id) = _
  rw [List.filterMap_map]
  rfl

theorem filterMap_ite {α ρ : Type} {p : ρ → Prop} [DecidablePred p] (f : ρ → α) (rows : List ρ) :
    rows.filterMap (fun row => if p row then some (f row) else none) =
      (rows.filter fun row => p row).map f := by
  rw [← List.filterMap_eq_map, List.filterMap_filter]
  simp only [decide_eq_true_eq, Function.comp_apply]

/-- A community up to a level, with its title. -/
def rollupOf (level : ℤ) (row : CommunityRecord) : Option CommunityRollupRow :=
  if row.level > level then none else some ⟨row.community.getD 0, row.title⟩

theorem communityRollupRows_ok (hcells : ∀ row ∈ communities, CommunityCells row) :
    communityRollupRows (communitiesFrame communities) level method =
      .ok (communities.filterMap (rollupOf level)) := by
  have hlevel := communities_level communities
  have htitle := communities_title communities
  have hcommunity := communities_community communities
  refine readRows_ok rfl fun i row hrow => ?_
  obtain ⟨community, -, -, hnumber, -⟩ := hcells row (List.mem_of_getElem? hrow)
  rw [hlevel.requiredI64 hrow rfl, rollupOf]
  show (if row.level > level then _ else _) = _
  split_ifs
  · rfl
  · rw [htitle.optionalString hrow rfl, hcommunity.optionalCommunityId hrow (by rw [hnumber]; rfl),
      hnumber]
    rfl

/-- **The communities up to a level are all there after the roll-up.** -/
theorem mem_rollup (hcells : ∀ row ∈ communities, CommunityCells row) {row : CommunityRecord}
    (hrow : row ∈ communities) (hlevel : row.level ≤ level) {community : ℤ}
    (hcommunity : row.community = some community) :
    community ∈ rollupCommunities (communities.filterMap (rollupOf level)) := by
  have hnamed : ∀ rolled ∈ communities.filterMap (rollupOf level),
      rolled.title = "Community " ++ toString rolled.community := by
    intro rolled hrolled
    obtain ⟨other, hother, heq⟩ := List.mem_filterMap.mp hrolled
    obtain ⟨number, -, -, hnumber, -, -, htitle⟩ := hcells other hother
    unfold rollupOf at heq
    split_ifs at heq
    obtain rfl := Option.some.inj heq
    rw [htitle, hnumber]
    rfl
  have hrolled : (⟨community, row.title⟩ : CommunityRollupRow) ∈
      communities.filterMap (rollupOf level) := by
    refine List.mem_filterMap.mpr ⟨row, hrow, ?_⟩
    rw [rollupOf, if_neg (not_lt.mpr hlevel), hcommunity]
    rfl
  rw [mem_rollupCommunities]
  exact ⟨_, ((mem_titleMax hnamed).2 _).mpr ⟨_, hrolled, rfl⟩, rfl⟩

/-- No report up to the level is left out of the allowed communities. -/
theorem allowedCommunities_ok (hcommunities : ∀ row ∈ communities, CommunityCells row)
    (hreports : ∀ report ∈ reports, ReportCells communities report) (dynamic : Bool) :
    ∃ allowed, allowedCommunities (communitiesFrame communities) level dynamic method =
        .ok allowed ∧
      ∀ report ∈ reports, report.level ≤ level → ∀ community, report.community = some community →
        (allowed.any fun communities => community ∉ communities) = false := by
  cases dynamic with
  | true =>
    have hlevel := communities_level communities
    have hvalid : validateDynamicCommunityRows (communitiesFrame communities) method = .ok () := by
      refine forM_eq_ok_of_forall fun i hi => ?_
      have hi : i < communities.length := List.mem_range.mp hi
      rw [hlevel.requiredI64 (List.getElem?_eq_getElem hi) rfl]
      rfl
    refine ⟨none, ?_, fun report _ _ community _ => rfl⟩
    rw [allowedCommunities, if_pos rfl, hvalid]
    rfl
  | false =>
    refine ⟨some (rollupCommunities (communities.filterMap (rollupOf level))), ?_,
      fun report hreport hle community hcommunity => ?_⟩
    · rw [allowedCommunities, if_neg (by decide), communityRollupRows_ok hcommunities]
      rfl
    · obtain ⟨-, row, hrow, number, hnumber, hsame, hlevel⟩ := hreports report hreport
      obtain rfl := Option.some.inj (hcommunity.symm.trans hsame)
      have hmem := mem_rollup hcommunities hrow (hlevel ▸ hle) hnumber
      simpa using hmem

/-- **All reports up to a level are read, in table order, with and without the roll-up.** -/
theorem readIndexerReports_ok (asF64 : ℤ → F64)
    (hcommunities : ∀ row ∈ communities, CommunityCells row)
    (hreports : ∀ report ∈ reports, ReportCells communities report) (dynamic : Bool) :
    readIndexerReports asF64 (communityReportsFrame reports) (communitiesFrame communities) level
      dynamic method =
        .ok ((reports.filter fun report => report.level ≤ level).map adaptedReport) := by
  have hlevel : HasColumn (communityReportsFrame reports) reports "level" .int64
      fun row => .int64 row.level := hasColumn_ofRows rfl
  have hcommunity := communityReports_community reports
  have hid : HasColumn (communityReportsFrame reports) reports "id" .string
      fun row => .string row.id := hasColumn_ofRows rfl
  have htitle : HasColumn (communityReportsFrame reports) reports "title" .string
      fun row => .string row.title := hasColumn_ofRows rfl
  have hsummary : HasColumn (communityReportsFrame reports) reports "summary" .string
      fun row => .string row.summary := hasColumn_ofRows rfl
  have hfullContent : HasColumn (communityReportsFrame reports) reports "full_content" .string
      fun row => .string row.fullContent := hasColumn_ofRows rfl
  have hrank : HasColumn (communityReportsFrame reports) reports "rank" .float64
      fun row => .float64 row.rank := hasColumn_ofRows rfl
  have hschema : validateSchema (communityReportsFrame reports) method "community_reports"
      [("id", "string"), ("community", "nullable community number"), ("level", "integer"),
        ("title", "string"), ("summary", "string"), ("full_content", "string")]
      [("rank", "nullable float")] = .ok () :=
    validateSchema_ok (hasColumns_ofRows rfl) (hasColumns_ofRows rfl)
  have hcommunitySchema : validateSchema (communitiesFrame communities) method "communities"
      (if dynamic then [("level", "integer"), ("entity_ids", "list<string>")]
      else [("level", "integer"), ("entity_ids", "list<string>"),
        ("community", "nullable community number"), ("title", "nullable string")]) [] = .ok () := by
    refine validateSchema_ok ?_ (hasColumns_ofRows rfl)
    cases dynamic
    · exact hasColumns_ofRows (by cases communities <;> rfl)
    · exact hasColumns_ofRows (by cases communities <;> rfl)
  obtain ⟨allowed, hallowed, hincluded⟩ :=
    @allowedCommunities_ok communities reports level method hcommunities hreports dynamic
  have hrows : readRows (communityReportsFrame reports)
      (readReportRow asF64 (communityReportsFrame reports) level dynamic method allowed) =
        .ok (reports.filterMap fun report =>
          if report.level ≤ level then some (adaptedReport report) else none) := by
    refine readRows_ok rfl fun i report hrow => ?_
    have hreport := List.mem_of_getElem? hrow
    obtain ⟨hfinite, -, -, community, -, hnumber, -⟩ := hreports report hreport
    have hread : reportCommunity (communityReportsFrame reports) dynamic method i =
        .ok (some community) := by
      unfold reportCommunity
      split_ifs
      · rw [hcommunity.requiredCommunityId hrow (by rw [hnumber]; rfl)]
        rfl
      · rw [hcommunity.optionalCommunityId hrow (by rw [hnumber]; rfl)]
    rw [readReportRow, hlevel.requiredI64 hrow rfl]
    show (if report.level > level then _ else _) = _
    by_cases habove : report.level > level
    · rw [if_pos habove, if_neg (not_le.mpr habove)]
      rfl
    · rw [if_neg habove, if_pos (not_lt.mp habove), hread]
      show (if (allowed.any fun communities => community ∉ communities) = true then _ else _) = _
      rw [hincluded report hreport (not_lt.mp habove) community hnumber, if_neg (by decide),
        hid.requiredString hrow rfl, htitle.requiredString hrow rfl,
        hsummary.requiredString hrow rfl, hfullContent.requiredString hrow rfl,
        hrank.optionalF64 hrow rfl hfinite, adaptedReport, hnumber]
      rfl
  rw [readIndexerReports, hschema, hcommunitySchema, hallowed]
  refine hrows.trans ?_
  rw [filterMap_ite]

/-! ### Communities -/

def adaptedCommunity (row : CommunityRecord) : IndexerCommunity where
  id := row.id
  shortId := toString (row.community.getD 0)
  title := row.title
  level := row.level
  parent := row.parent.getD 0
  children := row.children

/-- **The communities that have a report are read, in table order.** -/
theorem readIndexerCommunities_ok (hcommunities : ∀ row ∈ communities, CommunityCells row)
    (hreports : ∀ report ∈ reports, ReportCells communities report) :
    readIndexerCommunities (communitiesFrame communities) (communityReportsFrame reports) method =
      .ok ((communities.filter fun row =>
        row.community ∈ reports.map CommunityReportRecord.community).map adaptedCommunity) := by
  have hreported := communityReports_community reports
  have hcommunity := communities_community communities
  have hid : HasColumn (communitiesFrame communities) communities "id" .string
      fun row => .string row.id := hasColumn_ofRows rfl
  have htitle := communities_title communities
  have hlevel := communities_level communities
  have hparent : HasColumn (communitiesFrame communities) communities "parent" .int64
      fun row => nullable .int64 row.parent := hasColumn_ofRows rfl
  have hchildren : HasColumn (communitiesFrame communities) communities "children" (.list .int64)
      fun row => .list (row.children.map .int64) := hasColumn_ofRows rfl
  have hschema : validateSchema (communitiesFrame communities) method "communities"
      [("id", "string"), ("community", "integer"), ("title", "string"), ("level", "integer"),
        ("parent", "integer"), ("children", "list<integer>")] [] = .ok () :=
    validateSchema_ok (hasColumns_ofRows rfl) (hasColumns_ofRows rfl)
  have hreportSchema : validateSchema (communityReportsFrame reports) method "community_reports"
      [("community", "integer")] [] = .ok () :=
    validateSchema_ok (hasColumns_ofRows rfl) (hasColumns_ofRows rfl)
  have hids : (List.range reports.length).mapM (fun row =>
      requiredI64 (communityReportsFrame reports) row "community" method "community_reports") =
        .ok (reports.map fun report => report.community.getD 0) := by
    refine mapM_range_eq_ok fun i report hrow => ?_
    obtain ⟨-, -, -, community, -, hnumber, -⟩ := hreports report (List.mem_of_getElem? hrow)
    rw [hreported.requiredI64 hrow (by rw [hnumber]; rfl), hnumber]
    rfl
  -- a report has a community, and so has a row
  have hmem : ∀ row ∈ communities, row.community.getD 0 ∈
      (reports.map fun report => report.community.getD 0) ↔
        row.community ∈ reports.map CommunityReportRecord.community := by
    intro row hrow
    obtain ⟨number, -, -, hnumber, -⟩ := hcommunities row hrow
    rw [hnumber, List.mem_map, List.mem_map]
    refine exists_congr fun report => and_congr_right fun hreport => ?_
    obtain ⟨-, -, -, community, -, hcommunity, -⟩ := hreports report hreport
    rw [hcommunity, Option.some_inj]
    rfl
  have hrows : readRows (communitiesFrame communities) (readCommunityRow
      (communitiesFrame communities) method (reports.map fun report => report.community.getD 0)) =
        .ok (communities.filterMap fun row =>
          if row.community ∈ reports.map CommunityReportRecord.community then
            some (adaptedCommunity row) else none) := by
    refine readRows_ok rfl fun i row hrow => ?_
    have hrowMem := List.mem_of_getElem? hrow
    obtain ⟨number, parent, -, hnumber, hparentNumber, -⟩ := hcommunities row hrowMem
    have hiff := hmem row hrowMem
    rw [readCommunityRow, hcommunity.requiredI64 hrow (by rw [hnumber]; rfl)]
    show (if number ∉ _ then _ else _) = _
    rw [hnumber] at hiff
    by_cases hreport : number ∈ reports.map fun report => report.community.getD 0
    · rw [if_neg (not_not_intro hreport), hnumber, if_pos (hiff.mp hreport),
        hid.requiredString hrow rfl, htitle.requiredString hrow rfl, hlevel.requiredI64 hrow rfl,
        hparent.requiredI64 hrow (by rw [hparentNumber]; rfl), hchildren.requiredI64List hrow rfl,
        adaptedCommunity, hnumber, hparentNumber]
      rfl
    · rw [if_pos hreport, hnumber, if_neg (mt hiff.mpr hreport)]
      rfl
  rw [readIndexerCommunities, hschema, hreportSchema]
  show (do
    let reportIds ← (List.range reports.length).mapM fun row =>
      requiredI64 (communityReportsFrame reports) row "community" method "community_reports"
    readRows _ (readCommunityRow _ method reportIds)) = _
  rw [hids]
  refine hrows.trans ?_
  rw [filterMap_ite]

end Reports

end GraphLoom.Query
