import GraphLoom.Update.Equiv.References
import Mathlib.Algebra.BigOperators.Group.List.Basic
import Mathlib.Algebra.Field.Rat

/-!
# Merged rows

Every merge gives the delta rows the human-readable ids after the largest previous one
(`numbered`).  The new ids are then above the previous ones and increase with the delta row order,
so no two rows get one id (`numbered_nodup`), and a delta with a row whose id would leave the 64-bit
range is an error (`rebaseIds_overflow`).

A merged entity is made of all previous and delta rows with its title, and is the first of them in
everything that is not a list (`mergeEntities_rows`).  A delta id is mapped to the id of the last
previous row with the title instead, so the two agree as long as the previous table does not have
one title under several ids.

The rows that `mergeRelationships` makes before it filters have one row for each source and target
of both tables, made of all rows with them; their combined degrees count these rows, and the result
keeps those whose source and target are known titles (`mergeRelationships_rows`).
-/

namespace GraphLoom.Update

open Foundation

section Numbering

variable {ρ : Type} [HumanReadable ρ]

/-- The rows of both tables, the delta rows numbered on from the largest previous id. -/
def numbered (previous delta : List ρ) : List ρ :=
  previous ++ delta.zipIdx.map fun p =>
    withHumanReadableId (maxHumanReadableId previous + 1 + p.2) p.1

/-- One of `n` delta rows would get an id that does not fit. -/
def Overflows (previous : List ρ) (n : ℕ) : Prop :=
  ∃ i < n, i64Max < maxHumanReadableId previous + 1 + i

/-- The ids of the previous rows and of `n` delta rows behind them fit. -/
structure IdsFit (previous : List ρ) (n : ℕ) : Prop where
  ids : ∀ row ∈ previous, i64Min ≤ humanReadableId row
  initial : maxHumanReadableId previous + 1 ≤ i64Max
  delta : maxHumanReadableId previous + n ≤ i64Max
  length : (n : ℤ) ≤ i64Max

/-! ### The largest id -/

theorem foldl_max_append_singleton (rows : List ρ) (row : ρ) :
    (rows ++ [row]).foldl (fun (maximum : Option ℤ) row =>
        some (maximum.elim (humanReadableId row) (max · (humanReadableId row)))) none =
      some ((rows.foldl (fun (maximum : Option ℤ) row =>
        some (maximum.elim (humanReadableId row) (max · (humanReadableId row)))) none).elim
          (humanReadableId row) (max · (humanReadableId row))) := by
  rw [List.foldl_append]
  rfl

theorem le_maxHumanReadableId {rows : List ρ} {row : ρ} (h : row ∈ rows) :
    humanReadableId row ≤ maxHumanReadableId rows := by
  unfold maxHumanReadableId
  induction rows using List.reverseRecOn with
  | nil => exact absurd h List.not_mem_nil
  | append_singleton rows last ih =>
    rw [foldl_max_append_singleton, Option.getD_some]
    rcases List.mem_append.mp h with h | h
    · have hle := ih h
      cases hmax : rows.foldl (fun (maximum : Option ℤ) row =>
          some (maximum.elim (humanReadableId row) (max · (humanReadableId row)))) none with
      | none =>
        -- the rows are not empty, so there is a largest one
        cases rows using List.reverseRecOn with
        | nil => exact absurd h List.not_mem_nil
        | append_singleton rows last' =>
          rw [foldl_max_append_singleton] at hmax
          exact absurd hmax (Option.some_ne_none _)
      | some maximum =>
        rw [hmax, Option.getD_some] at hle
        rw [Option.elim_some]
        omega
    · obtain rfl := List.mem_singleton.mp h
      cases rows.foldl (fun (maximum : Option ℤ) row =>
          some (maximum.elim (humanReadableId row) (max · (humanReadableId row)))) none with
      | none => exact le_rfl
      | some maximum => exact le_max_right _ _

/-! ### The new ids -/

variable {previous delta rebased : List ρ} {initialId : ℤ} {message : String}

/-- The renumbered rows are those of `numbered`. -/
theorem append_rebaseIds (hinitial : initialHumanReadableId message previous = .ok initialId)
    (hdelta : rebaseIds initialId delta = .ok rebased) : previous ++ rebased = numbered previous delta := by
  rw [numbered, rebaseIds_ok hdelta, (initialHumanReadableId_ok hinitial).1]

/-- What does not read the human-readable id is as before. -/
theorem numbered_map {α : Type} {f : ρ → α} (hf : ∀ i row, f (withHumanReadableId i row) = f row) :
    (numbered previous delta).map f = (previous ++ delta).map f := by
  have hdelta : delta.zipIdx.map Prod.fst = delta := List.zipIdx_map_fst 0 delta
  rw [numbered, List.map_append, List.map_append, List.map_map]
  nth_rewrite 2 [← hdelta]
  rw [List.map_map]
  congr 1
  exact List.map_congr_left fun p _ => hf _ p.1

theorem numbered_map_id : (numbered previous delta).map humanReadableId =
    previous.map humanReadableId ++
      (List.range delta.length).map fun i : ℕ => maxHumanReadableId previous + 1 + (i : ℤ) := by
  have hrange : delta.zipIdx.map Prod.snd = List.range delta.length := by
    rw [List.zipIdx_map_snd, List.range_eq_range']
  rw [numbered, List.map_append, List.map_map, ← hrange, List.map_map]
  congr 1
  refine List.map_congr_left fun p _ => ?_
  exact HumanReadable.humanReadableId_with _ _

/-- **No two rows get one id** when no two previous rows have one. -/
theorem numbered_nodup (h : (previous.map humanReadableId).Nodup) :
    ((numbered previous delta).map humanReadableId).Nodup := by
  rw [numbered_map_id, List.nodup_append]
  refine ⟨h, List.Nodup.map (fun i j hij => ?_) List.nodup_range, ?_⟩
  · omega
  · intro id hid id' hid'
    obtain ⟨row, hrow, rfl⟩ := List.mem_map.mp hid
    obtain ⟨i, -, rfl⟩ := List.mem_map.mp hid'
    have hle := le_maxHumanReadableId hrow
    omega

/-! ### Overflow -/

variable {error : GraphLoomError}

theorem initialHumanReadableId_error
    (h : initialHumanReadableId message previous = .error error) : error = invalidUpdate message := by
  unfold initialHumanReadableId okOr at h
  split at h
  · cases h
  · exact (Except.error.inj h).symm

theorem offsetId_error {index : ℕ}
    (h : offsetId initialId index = .error error) : ∃ message, error = invalidUpdate message := by
  unfold offsetId usizeToI64 at h
  split_ifs at h
  · change okOr _ _ = _ at h
    unfold okOr at h
    split at h
    · cases h
    · exact ⟨_, (Except.error.inj h).symm⟩
  · exact ⟨_, (Except.error.inj h).symm⟩

theorem rebaseIds_error (h : rebaseIds initialId delta = .error error) :
    ∃ message, error = invalidUpdate message := by
  obtain ⟨-, ⟨row, index⟩, -, -, -, -, hoffset⟩ := mapM_eq_error_iff.mp h
  dsimp only at hoffset
  cases hid : offsetId initialId index with
  | error error' =>
    rw [hid] at hoffset
    obtain rfl := Except.error.inj hoffset
    exact offsetId_error hid
  | ok id =>
    rw [hid] at hoffset
    cases hoffset

/-- An id that does not fit is an error, with whatever is done afterwards. -/
theorem rebaseIds_overflow {σ α : Type} [HumanReadable σ] {rows : List σ}
    (h : Overflows previous rows.length) (message : String)
    (k : List σ → Except GraphLoomError α) : ∃ message',
      (initialHumanReadableId message previous >>= fun initialId =>
        rebaseIds initialId rows >>= k) = .error (invalidUpdate message') := by
  cases hinitial : initialHumanReadableId message previous with
  | error error =>
    rw [initialHumanReadableId_error hinitial]
    exact ⟨message, rfl⟩
  | ok initialId =>
    show ∃ message', (rebaseIds initialId rows >>= k) = _
    cases hrows : rebaseIds initialId rows with
    | error error =>
      obtain ⟨message', rfl⟩ := rebaseIds_error hrows
      exact ⟨message', rfl⟩
    | ok rebased =>
      -- every row has got an id that fits
      obtain ⟨i, hi, hmax⟩ := h
      rw [rebaseIds, mapM_eq_ok_iff] at hrows
      have hmem : (rows[i], i) ∈ rows.zipIdx :=
        List.mem_zipIdx_iff_getElem?.mpr (List.getElem?_eq_getElem hi)
      obtain ⟨row, -, hrow⟩ := forall₂_exists_right hrows hmem
      obtain ⟨id, hid, -⟩ := bind_eq_ok.mp hrow
      have hfits := offsetId_ok hid
      have hinitial := (initialHumanReadableId_ok hinitial).1
      omega

/-- The largest id is one of the ids, or `-1`. -/
theorem IdsFit.le_max {n : ℕ} (h : IdsFit previous n) : i64Min ≤ maxHumanReadableId previous := by
  cases previous with
  | nil =>
    show i64Min ≤ -1
    decide
  | cons row rows =>
    exact (h.ids row (List.mem_cons_self ..)).trans (le_maxHumanReadableId (List.mem_cons_self ..))

/-- Ids that fit are given to all rows. -/
theorem IdsFit.rebaseIds {σ : Type} [HumanReadable σ] {rows : List σ}
    (h : IdsFit previous rows.length) (message : String) : ∃ initialId rebased,
      initialHumanReadableId message previous = .ok initialId ∧
      Update.rebaseIds initialId rows = .ok rebased := by
  have hmin := h.le_max
  have hnext := h.initial
  have hdelta := h.delta
  have hlength := h.length
  refine ⟨maxHumanReadableId previous + 1, rows.zipIdx.map fun p =>
    withHumanReadableId (maxHumanReadableId previous + 1 + p.2) p.1, ?_, ?_⟩
  · rw [initialHumanReadableId, okOr_eq_ok_iff, checkedAdd_eq_some_iff]
    omega
  · rw [Update.rebaseIds, mapM_eq_ok_iff, List.forall₂_map_right_iff, List.forall₂_same]
    rintro ⟨row, i⟩ hmem
    have hi := (List.mem_zipIdx' hmem).1
    refine bind_eq_ok.mpr ⟨_, bind_eq_ok.mpr ⟨(i : ℤ), ?_, ?_⟩, rfl⟩
    · rw [usizeToI64_eq_ok_iff]
      omega
    · rw [okOr_eq_ok_iff, checkedAdd_eq_some_iff]
      omega

end Numbering

/-! ## Merged entities -/

section Entities

/-- The rows with a title. -/
def withTitle (title : String) (rows : List EntityRecord) : List EntityRecord :=
  rows.filter fun row => row.title = title

/-- A merged entity is made of these rows. -/
structure EntityMergedFrom (rows : List EntityRecord) (row : MergedEntityRow) : Prop where
  descriptions : row.descriptions = rows.flatMap fun record => record.description.toStringList
  textUnitIds : row.textUnitIds = rows.flatMap fun record => record.textUnitIds.toStringList
  frequency : row.frequency = row.textUnitIds.length
  identity : ∃ first, rows.head? = some first ∧ row.id = first.id ∧
    row.humanReadableId = first.humanReadableId ∧ row.entityType = first.entityType ∧
    row.degree = first.degree

/-- The delta row that an id is mapped for: the last one with the id whose title existed. -/
def mappedRecord (previous delta : List EntityRecord) (id : String) : Option EntityRecord :=
  (delta.filter fun record =>
    record.id = id ∧ record.title ∈ previous.map EntityRecord.title).getLast?

/-- What the merge maps the ids of the delta rows to. -/
structure MapsEntityIds (previous delta : List EntityRecord) (merged : List MergedEntityRow)
    (mapping : IdMapping) : Prop where
  /-- The last previous row with the title decides. -/
  lookup : ∀ id, mapping.lookup id = (mappedRecord previous delta id).bind fun record =>
    ((withTitle record.title previous).getLast?).map EntityRecord.id
  /-- It is the surviving one when all previous rows with the title have its id. -/
  survives : ∀ id id' record, mappedRecord previous delta id = some record →
    mapping.lookup id = some id' → (∀ old ∈ previous, old.title = record.title → old.id = id') →
      ∃ row ∈ merged, row.title = record.title ∧ row.id = id'

/-! ### The groups -/

variable {previous delta : List EntityRecord} {merged : List MergedEntityRow}
  {mapping : IdMapping}

theorem readEntities_append (rows rows' : List EntityRecord) :
    readEntities (rows ++ rows') = readEntities rows ++ readEntities rows' :=
  List.map_append

theorem rebaseIds_readEntities {initialId : ℤ} {deltaRows : List EntityTableRow}
    (h : rebaseIds initialId (readEntities delta) = .ok deltaRows) :
    deltaRows = readEntities (delta.zipIdx.map fun p => withHumanReadableId (initialId + p.2) p.1) := by
  rw [rebaseIds_ok h, readEntities, readEntities, List.zipIdx_map, List.map_map, List.map_map]
  rfl

theorem readEntities_filter_title (title : String) (rows : List EntityRecord) :
    (readEntities rows).filter (fun row => row.title = title) =
      readEntities (withTitle title rows) := by
  rw [readEntities, List.filter_map]
  rfl

theorem readEntities_numbered {message : String} {initialId : ℤ} {deltaRows : List EntityTableRow}
    (hinitial : initialHumanReadableId message previous = .ok initialId)
    (hdelta : rebaseIds initialId (readEntities delta) = .ok deltaRows) :
    readEntities previous ++ deltaRows = readEntities (numbered previous delta) := by
  rw [rebaseIds_readEntities hdelta, (initialHumanReadableId_ok hinitial).1, numbered,
    readEntities_append]

section

variable (h : mergeEntities previous delta = .ok (merged, mapping))
include h

/-- The groups are the rows with one title, numbered. -/
theorem mergeEntities_decodes : Table.Decodes (fun group => resolveEntityGroup group.1 group.2)
      (groupBy EntityTableRow.title (readEntities (numbered previous delta))) merged := by
  obtain ⟨-, initialId, deltaRows, hinitial, hdelta, hmerged⟩ := mergeEntities_ok h
  rwa [readEntities_numbered hinitial hdelta] at hmerged

theorem mergeEntities_titles (title : String) : title ∈ merged.map MergedEntityRow.title ↔
      title ∈ (previous ++ delta).map EntityRecord.title := by
  have hmerged := mergeEntities_decodes h
  have htitles : (groupBy EntityTableRow.title (readEntities (numbered previous delta))).map
      Prod.fst = merged.map MergedEntityRow.title := by
    refine hmerged.map_eq fun group row hrow => ?_
    obtain ⟨first, -, rfl⟩ := resolveEntityGroup_ok hrow
    rfl
  rw [← htitles, mem_keys_groupBy_iff, readEntities_map_title, numbered_map fun _ _ => rfl]

theorem mergeEntities_mergedFrom {row : MergedEntityRow} (hrow : row ∈ merged) :
    EntityMergedFrom (withTitle row.title (numbered previous delta)) row := by
  obtain ⟨⟨title, group⟩, hgroup, hresolve⟩ := forall₂_exists_left (mergeEntities_decodes h) hrow
  obtain ⟨first, hfirst, rfl⟩ := resolveEntityGroup_ok hresolve
  obtain ⟨rfl, -⟩ := (mem_groupBy_iff _ _).mp hgroup
  dsimp only at hfirst ⊢
  rw [readEntities_filter_title] at hfirst ⊢
  rw [readEntities, List.head?_map, Option.map_eq_some_iff] at hfirst
  obtain ⟨record, hrecord, rfl⟩ := hfirst
  exact {
    descriptions := List.flatMap_map ..
    textUnitIds := List.flatMap_map ..
    frequency := rfl
    identity := ⟨record, hrecord, rfl, rfl, rfl, rfl⟩ }

end

/-! ### The mapping -/

theorem lastPreviousId_readEntities (title : String) :
    lastPreviousId (readEntities previous) title =
      ((withTitle title previous).getLast?).map EntityRecord.id := by
  rw [lastPreviousId, readEntities_filter_title, readEntities, List.getLast?_map, Option.map_map]
  rfl

theorem withTitle_eq_nil_iff {title : String} {rows : List EntityRecord} :
    withTitle title rows = [] ↔ title ∉ rows.map EntityRecord.title := by
  rw [withTitle, List.filter_eq_nil_iff, List.mem_map]
  simp

/-- What an id is mapped to. -/
theorem lookup_entityIdMapping_readEntities (id : String) :
    (entityIdMapping (readEntities previous) (readEntities delta)).lookup id =
      (mappedRecord previous delta id).bind fun record =>
        ((withTitle record.title previous).getLast?).map EntityRecord.id := by
  induction delta using List.reverseRecOn with
  | nil => rfl
  | append_singleton rows record ih =>
    obtain ⟨row, hrow, hrowId, hrowTitle⟩ : ∃ row, readEntities [record] = [row] ∧
        row.id = record.id ∧ row.title = record.title := ⟨_, rfl, rfl, rfl⟩
    rw [readEntities_append, hrow, lookup_entityIdMapping_append_singleton, hrowId, hrowTitle, ih,
      lastPreviousId_readEntities, mappedRecord, mappedRecord, List.filter_append,
      List.getLast?_append]
    by_cases hid : record.id = id
    · rw [if_pos hid.symm]
      by_cases htitle : record.title ∈ previous.map EntityRecord.title
      · -- this row is the last one with the id
        have hne : withTitle record.title previous ≠ [] := fun hnil =>
          withTitle_eq_nil_iff.mp hnil htitle
        rw [List.filter_cons_of_pos (by simpa using ⟨hid, by simpa using htitle⟩), List.filter_nil,
          List.getLast?_singleton, Option.some_or, Option.bind_some,
          List.getLast?_eq_some_getLast hne, Option.map_some, Option.some_or]
      · rw [withTitle_eq_nil_iff.mpr htitle,
          List.filter_cons_of_neg (by simpa using fun _ => by simpa using htitle)]
        rfl
    · rw [if_neg (Ne.symm hid), List.filter_cons_of_neg (by simp [hid])]
      rfl

theorem mergeEntities_mapping (h : mergeEntities previous delta = .ok (merged, mapping)) :
    MapsEntityIds previous delta merged mapping := by
  have hlookup : ∀ id, mapping.lookup id = (mappedRecord previous delta id).bind fun record =>
      ((withTitle record.title previous).getLast?).map EntityRecord.id := by
    obtain ⟨rfl, -⟩ := mergeEntities_ok h
    exact lookup_entityIdMapping_readEntities
  refine ⟨hlookup, fun id id' record hrecord hid hsame => ?_⟩
  have hmem := List.mem_of_getLast? hrecord
  rw [List.mem_filter, decide_eq_true_eq] at hmem
  obtain ⟨hdelta, -, htitle⟩ := hmem
  obtain ⟨row, hrow, hrowTitle⟩ :=
    mergeEntities_exists h (List.mem_map_of_mem (List.mem_append_right previous hdelta))
  refine ⟨row, hrow, hrowTitle, ?_⟩
  -- the first row with the title is a previous one
  have hfirst := mergeEntities_id h hrow
  rw [hrowTitle, List.find?_append] at hfirst
  cases hfind : previous.find? fun r => r.title = record.title with
  | none =>
    obtain ⟨old, hold, holdTitle⟩ := List.mem_map.mp htitle
    exact absurd holdTitle (by simpa using List.find?_eq_none.mp hfind old hold)
  | some old =>
    rw [hfind, Option.some_or, Option.map_some] at hfirst
    rw [← Option.some.inj hfirst]
    exact hsame old (List.mem_of_find?_eq_some hfind) (by simpa using List.find?_some hfind)

/-- **What merging entities does.**  The titles are those of both tables in strictly increasing
order, each row is made of the previous and then the delta rows with its title, and the mapping
takes a delta id to the last previous row with its title. -/
theorem mergeEntities_rows (h : mergeEntities previous delta = .ok (merged, mapping)) :
    (merged.map MergedEntityRow.title).Pairwise (· < ·) ∧
      (∀ title, title ∈ merged.map MergedEntityRow.title ↔
        title ∈ (previous ++ delta).map EntityRecord.title) ∧
      (∀ row ∈ merged, EntityMergedFrom (withTitle row.title (numbered previous delta)) row) ∧
      MapsEntityIds previous delta merged mapping :=
  ⟨mergeEntities_titles_sorted h, mergeEntities_titles h, fun _ => mergeEntities_mergedFrom h,
    mergeEntities_mapping h⟩

/-- A known and a new title. -/
theorem mergeEntities_rows_sample : ∃ merged mapping,
    MapsEntityIds (sampleEntities [("old", 4, "A")]) (sampleEntities [("new", 0, "A"), ("b", 1, "B")])
      merged mapping ∧ merged.map MergedEntityRow.humanReadableId = [4, 6] := by
  have hmerge : mergeEntities (sampleEntities [("old", 4, "A")])
      (sampleEntities [("new", 0, "A"), ("b", 1, "B")]) = .ok (_, _) := rfl
  exact ⟨_, _, (mergeEntities_rows hmerge).2.2.2, by decide⟩

/-- With one title under two ids, the mapping leads to the last id and the first one survives. -/
theorem mergeEntities_maps_to_last : ∃ merged mapping,
    mergeEntities (sampleEntities [("first", 0, "A"), ("last", 1, "A")])
      (sampleEntities [("new", 0, "A")]) = .ok (merged, mapping) ∧
    mapping.lookup "new" = some "last" ∧
    merged.map (fun row => (row.title, row.id)) = [("A", "first")] :=
  ⟨_, _, rfl, by decide, by decide⟩

end Entities

/-! ## Merged relationships -/

section Relationships

variable {ω : Type}

/-- The rows with a source and a target. -/
def withEndpoints (endpoints : String × String) (rows : List (RelationshipRecord ω)) :
    List (RelationshipRecord ω) :=
  rows.filter fun row => row.endpoints = endpoints

def MergedRelationshipRow.endpoints (row : MergedRelationshipRow ω) : String × String :=
  (row.source, row.target)

/-- A merged relationship is made of these rows, and its weight is the mean of theirs. -/
structure RelationshipMergedFrom [AddMonoid ω] [Div ω] [NatCast ω]
    (rows : List (RelationshipRecord ω)) (row : MergedRelationshipRow ω) : Prop where
  descriptions : row.descriptions = rows.flatMap fun record => record.description.toStringList
  textUnitIds : row.textUnitIds = rows.flatMap fun record => record.textUnitIds.toStringList
  weight : row.weight = (rows.map RelationshipRecord.weight).sum / (rows.length : ω)
  identity : ∃ first, rows.head? = some first ∧ row.id = first.id ∧
    row.humanReadableId = first.humanReadableId

/-- How many rows have the source of a row, and how many its target. -/
def combinedCount (rows : List (MergedRelationshipRow ω)) (row : MergedRelationshipRow ω) : ℕ :=
  rows.countP (fun r => r.source = row.source) + rows.countP (fun r => r.target = row.target)

/-- The merged rows before the ones with unknown titles are dropped. -/
structure MergesRelationships [AddMonoid ω] [Div ω] [NatCast ω]
    (previous delta : List (RelationshipRecord ω)) (unfiltered : List (MergedRelationshipRow ω)) :
    Prop where
  sorted : (unfiltered.map fun row => toLex row.endpoints).Pairwise (· < ·)
  keys : ∀ endpoints, endpoints ∈ unfiltered.map MergedRelationshipRow.endpoints ↔
    endpoints ∈ (previous ++ delta).map RelationshipRecord.endpoints
  groups : ∀ row ∈ unfiltered,
    RelationshipMergedFrom (withEndpoints row.endpoints (numbered previous delta)) row
  /-- The sum saturates at the largest 64-bit integer. -/
  saturated : ∀ row ∈ unfiltered, row.combinedDegree = min i64Max (combinedCount unfiltered row)
  /-- No table in memory has so many rows that it does. -/
  degrees : 2 * (unfiltered.length : ℤ) ≤ i64Max → ∀ row ∈ unfiltered,
    row.combinedDegree = combinedCount unfiltered row

/-! ### Degrees -/

theorem combinedCount_le (rows : List (MergedRelationshipRow ω)) (row : MergedRelationshipRow ω) :
    combinedCount rows row ≤ 2 * rows.length := by
  have hsource := List.countP_le_length (p := fun r => decide (r.source = row.source)) (l := rows)
  have htarget := List.countP_le_length (p := fun r => decide (r.target = row.target)) (l := rows)
  unfold combinedCount
  omega

/-- A degree is how many rows have the key. -/
theorem degrees_eq {ρ : Type} (key : ρ → String) (rows : List ρ) (k : String) :
    degrees key rows k = min i64Max (rows.countP (fun row => key row = k)) := by
  unfold degrees
  induction rows using List.reverseRecOn with
  | nil =>
    have hmax : (0 : ℤ) ≤ i64Max := by decide
    simp [hmax]
  | append_singleton rows row ih =>
    rw [List.foldl_append, List.foldl_cons, List.foldl_nil, List.countP_append,
      List.countP_singleton]
    by_cases hk : key row = k
    · rw [hk, Function.update_self, ih, if_pos (by simp)]
      unfold saturatingAdd i64Max i64Min
      omega
    · rw [Function.update_of_ne (Ne.symm hk), ih, if_neg (by simpa using hk), Nat.add_zero]

variable {row : MergedRelationshipRow ω}

/-- Combining the degrees adds the counts. -/
theorem mem_withCombinedDegrees {merged : List (MergedRelationshipRow ω)}
    (h : row ∈ withCombinedDegrees merged) :
    ∃ row' ∈ merged, row = { row' with combinedDegree := min i64Max (combinedCount merged row') } := by
  obtain ⟨row', hrow', rfl⟩ := List.mem_map.mp h
  refine ⟨row', hrow', ?_⟩
  rw [degrees_eq, degrees_eq, combinedCount]
  congr 1
  unfold saturatingAdd i64Max i64Min
  push_cast
  omega

theorem withCombinedDegrees_map {α : Type} {f : MergedRelationshipRow ω → α}
    (hf : ∀ row degree, f { row with combinedDegree := degree } = f row)
    (merged : List (MergedRelationshipRow ω)) : (withCombinedDegrees merged).map f = merged.map f := by
  rw [withCombinedDegrees, List.map_map]
  exact List.map_congr_left fun row _ => hf row _

/-- Degrees do not count in the counts. -/
theorem combinedCount_withCombinedDegrees (merged : List (MergedRelationshipRow ω))
    (row : MergedRelationshipRow ω) :
    combinedCount (withCombinedDegrees merged) row = combinedCount merged row := by
  unfold combinedCount withCombinedDegrees
  rw [List.countP_map, List.countP_map]
  rfl

/-! ### The groups -/

variable {previous delta : List (RelationshipRecord ω)} {entityTitles : List String}
  {merged unfiltered : List (MergedRelationshipRow ω)}

theorem readRelationships_append (rows rows' : List (RelationshipRecord ω)) :
    readRelationships (rows ++ rows') = readRelationships rows ++ readRelationships rows' :=
  List.map_append

theorem rebaseIds_readRelationships {initialId : ℤ} {deltaRows : List (RelationshipTableRow ω)}
    (h : rebaseIds initialId (readRelationships delta) = .ok deltaRows) :
    deltaRows =
      readRelationships (delta.zipIdx.map fun p => withHumanReadableId (initialId + p.2) p.1) := by
  rw [rebaseIds_ok h, readRelationships, readRelationships, List.zipIdx_map, List.map_map,
    List.map_map]
  rfl

theorem readRelationships_numbered {message : String} {initialId : ℤ}
    {deltaRows : List (RelationshipTableRow ω)}
    (hinitial : initialHumanReadableId message previous = .ok initialId)
    (hdelta : rebaseIds initialId (readRelationships delta) = .ok deltaRows) :
    readRelationships previous ++ deltaRows = readRelationships (numbered previous delta) := by
  rw [rebaseIds_readRelationships hdelta, (initialHumanReadableId_ok hinitial).1, numbered,
    readRelationships_append]

theorem readRelationships_filter_key (endpoints : String × String)
    (rows : List (RelationshipRecord ω)) :
    (readRelationships rows).filter (fun row => row.key = toLex endpoints) =
      readRelationships (withEndpoints endpoints rows) := by
  rw [readRelationships, List.filter_map]
  rfl

section Keys

variable [Zero ω] [Add ω] [Div ω] [NatCast ω]

/-- The groups are the rows with one source and target, numbered. -/
theorem mergeRelationships_decodes
    (h : mergeRelationships previous delta entityTitles = .ok merged) : ∃ unfiltered,
      Table.Decodes (fun group =>
          mergeRelationshipGroup (ofLex group.1).1 (ofLex group.1).2 group.2)
        (groupBy RelationshipTableRow.key (readRelationships (numbered previous delta)))
        unfiltered ∧
      merged = (withCombinedDegrees unfiltered).filter fun row =>
        row.source ∈ entityTitles ∧ row.target ∈ entityTitles := by
  obtain ⟨initialId, deltaRows, unfiltered, hinitial, hdelta, hmerged, hfilter⟩ :=
    mergeRelationships_ok h
  rw [readRelationships_numbered hinitial hdelta] at hmerged
  exact ⟨unfiltered, hmerged, hfilter⟩

/-- The keys of the groups are the sources and targets of the merged rows. -/
theorem decodes_keys {groups : List ((String ×ₗ String) × List (RelationshipTableRow ω))}
    (h : Table.Decodes (fun group =>
      mergeRelationshipGroup (ofLex group.1).1 (ofLex group.1).2 group.2) groups unfiltered) :
    groups.map Prod.fst = unfiltered.map fun row => toLex row.endpoints := by
  refine h.map_eq fun group row hrow => ?_
  obtain ⟨first, -, rfl⟩ := mergeRelationshipGroup_ok hrow
  rfl

/-- The sources and targets of the merged rows are those of both tables. -/
theorem mem_endpoints_of_decodes
    (h : Table.Decodes (fun group =>
        mergeRelationshipGroup (ofLex group.1).1 (ofLex group.1).2 group.2)
      (groupBy RelationshipTableRow.key (readRelationships (numbered previous delta))) unfiltered)
    (endpoints : String × String) : endpoints ∈ unfiltered.map MergedRelationshipRow.endpoints ↔
      endpoints ∈ (previous ++ delta).map RelationshipRecord.endpoints := by
  have hlex : endpoints ∈ unfiltered.map MergedRelationshipRow.endpoints ↔
      toLex endpoints ∈ unfiltered.map fun row => toLex row.endpoints := by
    simp
  have hread : (readRelationships (numbered previous delta)).map RelationshipTableRow.key =
      (previous ++ delta).map fun record => toLex record.endpoints := by
    rw [← numbered_map (f := fun record : RelationshipRecord ω => toLex record.endpoints)
      fun _ _ => rfl, readRelationships, List.map_map]
    rfl
  rw [hlex, ← decodes_keys h, mem_keys_groupBy_iff, hread]
  simp

/-- A merged row has the id and the human-readable id of the first of its rows. -/
theorem identity_of_decodes {records : List (RelationshipRecord ω)} (h : Table.Decodes (fun group =>
        mergeRelationshipGroup (ofLex group.1).1 (ofLex group.1).2 group.2)
      (groupBy RelationshipTableRow.key (readRelationships records)) unfiltered)
    (hrow : row ∈ unfiltered) :
    ∃ first, (withEndpoints row.endpoints records).head? = some first ∧ row.id = first.id ∧
      row.humanReadableId = first.humanReadableId := by
  obtain ⟨⟨key, group⟩, hgroup, hmerge⟩ := forall₂_exists_left h hrow
  obtain ⟨first, hfirst, rfl⟩ := mergeRelationshipGroup_ok hmerge
  obtain ⟨rfl, -⟩ := (mem_groupBy_iff _ _).mp hgroup
  have hrows : (readRelationships records).filter (fun row => row.key = key) =
      readRelationships (withEndpoints (ofLex key) records) :=
    readRelationships_filter_key (ofLex key) records
  dsimp only at hfirst
  rw [hrows, readRelationships, List.head?_map, Option.map_eq_some_iff] at hfirst
  obtain ⟨record, hrecord, rfl⟩ := hfirst
  exact ⟨record, hrecord, rfl, rfl⟩

end Keys

section Groups

variable [Field ω]

/-- The weights of a group add up. -/
theorem foldl_weight (rows : List (RelationshipRecord ω)) :
    (readRelationships rows).foldl (fun weight row => weight + row.weight) 0 =
      (rows.map RelationshipRecord.weight).sum := by
  rw [List.sum_eq_foldl, readRelationships, List.foldl_map, List.foldl_map]

theorem mergedFrom_of_decodes {records : List (RelationshipRecord ω)}
    (h : Table.Decodes (fun group =>
        mergeRelationshipGroup (ofLex group.1).1 (ofLex group.1).2 group.2)
      (groupBy RelationshipTableRow.key (readRelationships records)) unfiltered)
    (hrow : row ∈ unfiltered) :
    RelationshipMergedFrom (withEndpoints row.endpoints records) row := by
  have hidentity := identity_of_decodes h hrow
  obtain ⟨⟨key, group⟩, hgroup, hmerge⟩ := forall₂_exists_left h hrow
  obtain ⟨first, -, rfl⟩ := mergeRelationshipGroup_ok hmerge
  obtain ⟨rfl, -⟩ := (mem_groupBy_iff _ _).mp hgroup
  have hrows : (readRelationships records).filter (fun row => row.key = key) =
      readRelationships (withEndpoints (ofLex key) records) :=
    readRelationships_filter_key (ofLex key) records
  dsimp only at hidentity ⊢
  rw [hrows]
  exact {
    descriptions := List.flatMap_map ..
    textUnitIds := List.flatMap_map ..
    weight := by
      rw [foldl_weight, readRelationships, List.length_map]
      rfl
    identity := hidentity }

/-- Degrees are no part of what a row is made of. -/
theorem RelationshipMergedFrom.withDegree {rows : List (RelationshipRecord ω)}
    (h : RelationshipMergedFrom rows row) (degree : ℤ) :
    RelationshipMergedFrom rows { row with combinedDegree := degree } :=
  ⟨h.descriptions, h.textUnitIds, h.weight, h.identity⟩

/-- **What merging relationships does.**  Before the filter there is one row for each source and
target, with the mean weight of its group, and its degree counts all these rows; the result keeps
the rows between known titles. -/
theorem mergeRelationships_rows
    (h : mergeRelationships previous delta entityTitles = .ok merged) : ∃ unfiltered,
      MergesRelationships previous delta unfiltered ∧
      merged = unfiltered.filter fun row =>
        row.source ∈ entityTitles ∧ row.target ∈ entityTitles := by
  obtain ⟨rows, hrows, hmerged⟩ := mergeRelationships_decodes h
  have hkeys := decodes_keys hrows
  have hendpoints : (withCombinedDegrees rows).map (fun row => toLex row.endpoints) =
      rows.map fun row => toLex row.endpoints := withCombinedDegrees_map (fun _ _ => rfl) rows
  have hdegrees : ∀ row ∈ withCombinedDegrees rows,
      row.combinedDegree = min i64Max (combinedCount (withCombinedDegrees rows) row) := by
    intro row hrow
    obtain ⟨row', hrow', rfl⟩ := mem_withCombinedDegrees hrow
    rw [combinedCount_withCombinedDegrees]
    rfl
  refine ⟨withCombinedDegrees rows, ⟨?_, fun endpoints => ?_, fun row hrow => ?_, hdegrees,
    fun hfits row hrow => ?_⟩, hmerged⟩
  · rw [hendpoints, ← hkeys, List.pairwise_map]
    exact groupBy_sorted _ _
  · rw [withCombinedDegrees_map (fun _ _ => rfl) rows]
    exact mem_endpoints_of_decodes hrows endpoints
  · obtain ⟨row', hrow', rfl⟩ := mem_withCombinedDegrees hrow
    exact (mergedFrom_of_decodes hrows hrow').withDegree _
  · have hle := combinedCount_le (withCombinedDegrees rows) row
    rw [hdegrees row hrow]
    omega

end Groups

/-- A relationship with these endpoints and this weight. -/
def sampleEdge (id source target : String) (humanReadableId : ℤ) (weight : ℚ) :
    RelationshipRecord ℚ where
  id := id
  humanReadableId := humanReadableId
  source := source
  target := target
  description := .string id
  weight := weight
  combinedDegree := 0
  textUnitIds := .list []

/-- One relationship is found again, another one is new, and a third leads to no known entity. -/
theorem mergeRelationships_rows_sample : ∃ merged unfiltered,
    MergesRelationships
      [sampleEdge "old-ab" "A" "B" 4 2, sampleEdge "old-orphan" "A" "MISSING" 5 1]
      [sampleEdge "new-ab" "A" "B" 0 4, sampleEdge "new-bc" "B" "C" 1 5] unfiltered ∧
    merged = unfiltered.filter (fun row =>
      row.source ∈ ["A", "B", "C"] ∧ row.target ∈ ["A", "B", "C"]) ∧
    merged.map (fun row => (row.id, row.humanReadableId, row.combinedDegree)) =
      [("old-ab", 4, 3), ("new-bc", 7, 2)] := by
  have hmerge : mergeRelationships
      [sampleEdge "old-ab" "A" "B" 4 2, sampleEdge "old-orphan" "A" "MISSING" 5 1]
      [sampleEdge "new-ab" "A" "B" 0 4, sampleEdge "new-bc" "B" "C" 1 5] ["A", "B", "C"] = .ok _ :=
    rfl
  obtain ⟨unfiltered, hmerges, hmerged⟩ := mergeRelationships_rows hmerge
  exact ⟨_, unfiltered, hmerges, hmerged, by decide⟩

end Relationships

end GraphLoom.Update
