import GraphLoom.Update.Equiv.Groups

/-!
# Human-readable ids across updates

Documents, covariates and text units are appended and entities and relationships are grouped, but
all five merges number the delta rows in the same way, so none of them gives one id to two rows or
an id that does not fit (`merges_count_on`).  The ids of a project are then distinct after any
number of updates, whatever the ids of the deltas are.
-/

namespace GraphLoom.Update

open Foundation

variable {ω : Type}

/-! ### What a merge does to the ids -/

section CountsOn

variable {ρ μ κ : Type} [HumanReadable ρ]

/-- The previous rows stay, and the delta rows follow with ids that count on. -/
structure AppendsCounting (Same : ρ → ρ → Prop) (previous delta merged : List ρ) : Prop where
  unique : (previous.map humanReadableId).Nodup → (merged.map humanReadableId).Nodup
  rows : ∃ appended, merged = previous ++ appended ∧ List.Forall₂ Same delta appended ∧
    (∀ old ∈ previous, ∀ row ∈ appended, humanReadableId old < humanReadableId row) ∧
    (appended.map humanReadableId).Pairwise (· < ·)

/-- Each key of both tables that is kept has one merged row.  It has the id of the previous row that
it continues, or, when its key is new, an id above all previous ones that increases with the place
of its key in the delta. -/
structure GroupsCounting [DecidableEq κ] (key : ρ → κ) (mergedKey : μ → κ) (Kept : κ → Prop)
    (id : μ → ℤ) (previous delta : List ρ) (merged : List μ) : Prop where
  once : (merged.map mergedKey).Nodup
  survives : ∀ k, k ∈ merged.map mergedKey ↔ Kept k ∧ k ∈ (previous ++ delta).map key
  unique : (previous.map humanReadableId).Nodup → (merged.map id).Nodup
  keeps : ∀ row ∈ merged, ∀ old, previous.find? (fun r => key r = mergedKey row) = some old →
    id row = humanReadableId old
  above : ∀ row ∈ merged, mergedKey row ∉ previous.map key →
    ∀ old ∈ previous, humanReadableId old < id row
  increasing : ∀ row ∈ merged, ∀ row' ∈ merged, mergedKey row ∉ previous.map key →
    mergedKey row' ∉ previous.map key →
      (delta.map key).idxOf (mergedKey row) < (delta.map key).idxOf (mergedKey row') →
        id row < id row'

/-- A merge whose rows fit (`Fits`) ends well with `Good` rows when all ids fit, and fails when an
id does not. -/
structure CountsOn (previous delta : List ρ) (Fits : Prop)
    (outcome : Except GraphLoomError (List μ)) (Good : List μ → Prop) : Prop where
  ok : ∀ merged, outcome = .ok merged → Good merged
  succeeds : IdsFit previous delta.length → Fits → ∃ merged, outcome = .ok merged
  overflow : Overflows previous delta.length →
    ∃ message, outcome = .error (invalidUpdate message)

variable {previous delta : List ρ}

theorem appendsCounting_of {Same : ρ → ρ → Prop} {initialId : ℤ} {message : String}
    {rebased appended : List ρ} (hinitial : initialHumanReadableId message previous = .ok initialId)
    (hdelta : rebaseIds initialId delta = .ok rebased) (hsame : List.Forall₂ Same delta appended)
    (hids : appended.map humanReadableId = rebased.map humanReadableId) :
    AppendsCounting Same previous delta (previous ++ appended) := by
  have hnumbered : (previous ++ appended).map humanReadableId =
      (numbered previous delta).map humanReadableId := by
    rw [List.map_append, hids, ← List.map_append, append_rebaseIds hinitial hdelta]
  have happended : appended.map humanReadableId =
      (List.range delta.length).map fun i : ℕ => maxHumanReadableId previous + 1 + (i : ℤ) := by
    rw [numbered_map_id, List.map_append] at hnumbered
    exact List.append_cancel_left hnumbered
  refine ⟨fun h => ?_, appended, rfl, hsame, fun old hold row hrow => ?_, ?_⟩
  · rw [hnumbered]
    exact numbered_nodup h
  · have hle := le_maxHumanReadableId hold
    have hmem := List.mem_map_of_mem (f := humanReadableId) hrow
    rw [happended, List.mem_map] at hmem
    obtain ⟨i, -, hi⟩ := hmem
    omega
  · rw [happended, List.pairwise_map]
    refine List.pairwise_lt_range.imp fun {i j} hij => ?_
    omega

/-! ### Groups -/

variable [DecidableEq κ] {key : ρ → κ} (hkey : ∀ i row, key (withHumanReadableId i row) = key row)
include hkey

/-- The first of the numbered rows with a key has the number of its place. -/
theorem find?_zipIdx_humanReadableId
    (first : ℤ) {k : κ} {rows : List ρ} (h : k ∈ rows.map key) (n : ℕ) :
    (((rows.zipIdx n).map fun p => withHumanReadableId (first + p.2) p.1).find?
      fun r => key r = k).map humanReadableId = some (first + n + (rows.map key).idxOf k) := by
  induction rows generalizing n with
  | nil => exact absurd h List.not_mem_nil
  | cons row rows ih =>
    rw [List.zipIdx_cons, List.map_cons, List.map_cons, List.find?_cons]
    by_cases hk : key row = k
    · simp [hkey, hk]
    · have hrest : k ∈ rows.map key := by
        rw [List.map_cons] at h
        exact List.mem_of_ne_of_mem (Ne.symm hk) h
      have hstep := ih hrest (n + 1)
      simp only [hkey, hk, decide_false]
      rw [hstep, List.idxOf_cons_ne _ hk]
      congr 1
      push_cast
      omega

theorem find?_numbered_of_not_mem
    {k : κ} (hprevious : k ∉ previous.map key) (hdelta : k ∈ delta.map key) :
    ((numbered previous delta).find? fun r => key r = k).map humanReadableId =
      some (maxHumanReadableId previous + 1 + (delta.map key).idxOf k) := by
  rw [numbered, Table.find?_append_of_not_mem hprevious,
    find?_zipIdx_humanReadableId hkey _ hdelta 0]
  simp

/-- Rows that have the id of the first numbered row with their key count on. -/
theorem groupsCounting_of {mergedKey : μ → κ} {Kept : κ → Prop} {id : μ → ℤ} {merged : List μ}
    (hkeys : (merged.map mergedKey).Nodup)
    (hsurvives : ∀ k, k ∈ merged.map mergedKey ↔ Kept k ∧ k ∈ (previous ++ delta).map key)
    (hfirst : ∀ row ∈ merged, ((numbered previous delta).find? fun r => key r = mergedKey row).map
      humanReadableId = some (id row)) :
    GroupsCounting key mergedKey Kept id previous delta merged := by
  have hnew : ∀ row ∈ merged, mergedKey row ∉ previous.map key →
      id row = maxHumanReadableId previous + 1 + (delta.map key).idxOf (mergedKey row) := by
    intro row hrow hold
    have hid := hfirst row hrow
    have hdelta : mergedKey row ∈ delta.map key := by
      obtain ⟨first, hfind, -⟩ := Option.map_eq_some_iff.mp hid
      have hmem := List.mem_map_of_mem (f := key) (List.mem_of_find?_eq_some hfind)
      have hk : key first = mergedKey row := by simpa using List.find?_some hfind
      rw [hk, numbered_map hkey, List.map_append, List.mem_append] at hmem
      exact hmem.resolve_left hold
    rw [find?_numbered_of_not_mem hkey hold hdelta] at hid
    exact (Option.some.inj hid).symm
  refine ⟨hkeys, hsurvives, fun hunique => ?_, fun row hrow old hold => ?_,
    fun row hrow hold old hmem => ?_, fun row hrow row' hrow' hold hold' hlt => ?_⟩
  · refine List.Nodup.map_on (fun row hrow row' hrow' heq => ?_) hkeys.of_map
    -- both have the id of a numbered row, which is the same one
    obtain ⟨first, hfind, hid⟩ := Option.map_eq_some_iff.mp (hfirst row hrow)
    obtain ⟨first', hfind', hid'⟩ := Option.map_eq_some_iff.mp (hfirst row' hrow')
    have hsame : first = first' :=
      List.inj_on_of_nodup_map (numbered_nodup hunique) (List.mem_of_find?_eq_some hfind)
        (List.mem_of_find?_eq_some hfind') (hid.trans (heq.trans hid'.symm))
    have hk : key first = mergedKey row := by simpa using List.find?_some hfind
    have hk' : key first' = mergedKey row' := by simpa using List.find?_some hfind'
    refine List.inj_on_of_nodup_map hkeys hrow hrow' ?_
    rw [← hk, ← hk', hsame]
  · have hid := hfirst row hrow
    rw [numbered, List.find?_append, hold, Option.some_or] at hid
    exact (Option.some.inj hid).symm
  · have hle := le_maxHumanReadableId hmem
    have hid := hnew row hrow hold
    omega
  · have hid := hnew row hrow hold
    have hid' := hnew row' hrow' hold'
    omega

end CountsOn

/-! ### The five merges -/

/-- The rows differ in the human-readable id and in how the entity ids are rewritten. -/
def SameButEntityIds (row row' : TextUnitRecord) : Prop :=
  SameContents { row with entityIds := row'.entityIds } row'

theorem concatenateWithRebasedIds_countsOn {ρ : Type} [HumanReadable ρ] (previous delta : List ρ) :
    CountsOn previous delta True (concatenateWithRebasedIds previous delta)
      (AppendsCounting SameContents previous delta) := by
  refine ⟨fun merged h => ?_, fun h _ => ?_, fun h => rebaseIds_overflow h _ _⟩
  · unfold concatenateWithRebasedIds at h
    obtain ⟨initialId, hinitial, h⟩ := bind_eq_ok.mp h
    obtain ⟨rebased, hrebased, h⟩ := bind_eq_ok.mp h
    rw [← Except.ok.inj h]
    exact appendsCounting_of hinitial hrebased (rebaseIds_sameContents hrebased) rfl
  · obtain ⟨initialId, rebased, hinitial, hrebased⟩ := h.rebaseIds _
    exact ⟨_, bind_eq_ok.mpr ⟨_, hinitial, bind_eq_ok.mpr ⟨_, hrebased, rfl⟩⟩⟩

theorem mergeTextUnits_countsOn (previous delta : List TextUnitRecord) (mapping : IdMapping) :
    CountsOn previous delta True (mergeTextUnits previous delta mapping)
      (AppendsCounting SameButEntityIds previous delta) := by
  refine ⟨fun merged h => ?_, fun h _ => ?_, fun h => rebaseIds_overflow h _ _⟩
  · unfold mergeTextUnits at h
    obtain ⟨initialId, hinitial, h⟩ := bind_eq_ok.mp h
    obtain ⟨rebased, hrebased, h⟩ := bind_eq_ok.mp h
    rw [← Except.ok.inj h]
    refine appendsCounting_of hinitial hrebased ?_ ?_
    · rw [List.forall₂_map_right_iff]
      refine (rebaseIds_sameContents hrebased).imp fun row row' hsame => ?_
      unfold SameContents at hsame
      rw [hsame]
      rfl
    · rw [List.map_map]
      rfl
  · obtain ⟨initialId, rebased, hinitial, hrebased⟩ := h.rebaseIds _
    exact ⟨_, bind_eq_ok.mpr ⟨_, hinitial, bind_eq_ok.mpr ⟨_, hrebased, rfl⟩⟩⟩

/-- No title has more text units than a frequency can count. -/
def FrequenciesFit (rows : List EntityRecord) : Prop :=
  ∀ title, (((withTitle title rows).flatMap fun row => row.textUnitIds.toStringList).length : ℤ) ≤
    i64Max

theorem numbered_textUnitIds (title : String) (previous delta : List EntityRecord) :
    ((withTitle title (numbered previous delta)).flatMap fun row => row.textUnitIds.toStringList) =
      (withTitle title (previous ++ delta)).flatMap fun row => row.textUnitIds.toStringList := by
  have hread : ∀ rows, ((withTitle title rows).flatMap fun row => row.textUnitIds.toStringList) =
      ((rows.map fun row : EntityRecord => (row.title, row.textUnitIds)).filter
        fun pair => pair.1 = title).flatMap fun pair => pair.2.toStringList := by
    intro rows
    rw [List.filter_map, List.flatMap_map]
    rfl
  rw [hread, hread, numbered_map fun _ _ => rfl]

/-- Entities merge when their ids and frequencies fit. -/
theorem mergeEntities_succeeds {previous delta : List EntityRecord}
    (hids : IdsFit previous delta.length) (hfits : FrequenciesFit (previous ++ delta)) :
    ∃ merged, (mergeEntities previous delta).map Prod.fst = .ok merged := by
  have hlength : (readEntities delta).length = delta.length := List.length_map _
  rw [← hlength] at hids
  have hgroups : ∀ group ∈ groupBy EntityTableRow.title (readEntities (numbered previous delta)),
      ∃ row, resolveEntityGroup group.1 group.2 = .ok row := by
    rintro ⟨title, group⟩ hgroup
    obtain ⟨hrows, hne⟩ := (mem_groupBy_iff _ _).mp hgroup
    obtain ⟨first, rest, hfirst⟩ := List.exists_cons_of_ne_nil hne
    have hfrequency : ((group.flatMap EntityTableRow.textUnitIds).length : ℤ) ≤ i64Max := by
      have hcount := hfits title
      rw [← numbered_textUnitIds] at hcount
      rw [hrows, readEntities_filter_title, readEntities, List.flatMap_map]
      exact hcount
    have hhead : group.head? = some first := by rw [hfirst, List.head?_cons]
    exact ⟨_, bind_eq_ok.mpr ⟨first, okOr_eq_ok_iff.mpr hhead, bind_eq_ok.mpr
      ⟨((group.flatMap EntityTableRow.textUnitIds).length : ℤ),
        usizeToI64_eq_ok_iff.mpr ⟨rfl, hfrequency⟩, rfl⟩⟩⟩
  obtain ⟨resolved, hresolved⟩ := exists_mapM_ok hgroups
  obtain ⟨initialId, deltaRows, hinitial, hdelta⟩ :=
    hids.rebaseIds "entity human_readable_id overflow"
  rw [← readEntities_numbered hinitial hdelta] at hresolved
  exact ⟨resolved, map_eq_ok.mpr ⟨(resolved, _), bind_eq_ok.mpr ⟨_, hinitial,
    bind_eq_ok.mpr ⟨_, hdelta, bind_eq_ok.mpr ⟨_, hresolved, rfl⟩⟩⟩, rfl⟩⟩

theorem mergeEntities_countsOn (previous delta : List EntityRecord) :
    CountsOn previous delta (FrequenciesFit (previous ++ delta))
      ((mergeEntities previous delta).map Prod.fst)
      (GroupsCounting EntityRecord.title MergedEntityRow.title (fun _ => True)
        MergedEntityRow.humanReadableId previous delta) := by
  constructor
  · intro merged h
    obtain ⟨⟨_, mapping⟩, hmerge, rfl⟩ := map_eq_ok.mp h
    refine groupsCounting_of (fun _ _ => rfl) ?_ (fun title => ?_) fun row hrow => ?_
    · exact (mergeEntities_titles_sorted hmerge).imp fun hlt => hlt.ne
    · rw [mergeEntities_titles hmerge, true_and]
    · obtain ⟨first, hfirst, -, hid, -⟩ := (mergeEntities_mergedFrom hmerge hrow).identity
      rw [← List.head?_filter, hid]
      exact congrArg (Option.map humanReadableId) hfirst
  · exact mergeEntities_succeeds
  · intro h
    have hlength : (readEntities delta).length = delta.length := List.length_map _
    rw [← hlength] at h
    obtain ⟨message, hmerge⟩ := rebaseIds_overflow h "entity human_readable_id overflow" _
    refine ⟨message, ?_⟩
    rw [mergeEntities]
    rw [hmerge]
    rfl

theorem summarized_map_humanReadableId (merged : List MergedEntityRow)
    (summaries : List SummarizedEntityRow) :
    (summarizedEntitiesDataframe merged summaries).map humanReadableId =
      merged.map MergedEntityRow.humanReadableId := by
  unfold summarizedEntitiesDataframe
  rw [List.map_map]
  rfl

theorem summarizedRelationships_map_humanReadableId (merged : List (MergedRelationshipRow ω))
    (summaries : List (SummarizedRelationshipRow ω)) :
    (summarizedRelationshipsDataframe merged summaries).map humanReadableId =
      merged.map MergedRelationshipRow.humanReadableId := by
  unfold summarizedRelationshipsDataframe
  rw [List.map_map]
  rfl

section Relationships

variable [Zero ω] [Add ω] [Div ω] [NatCast ω]

/-- No source and target have more rows than a mean can count. -/
def GroupsFit (rows : List (RelationshipRecord ω)) : Prop :=
  ∀ endpoints, (withEndpoints endpoints rows).length ≤ u32Max

/-- Relationships merge when their ids and groups fit. -/
theorem mergeRelationships_succeeds {previous delta : List (RelationshipRecord ω)}
    (hids : IdsFit previous delta.length) (hfits : GroupsFit (previous ++ delta))
    (entityTitles : List String) :
    ∃ merged, mergeRelationships previous delta entityTitles = .ok merged := by
  have hlength : (readRelationships delta).length = delta.length := List.length_map _
  rw [← hlength] at hids
  have hgroups : ∀ group ∈ groupBy RelationshipTableRow.key
      (readRelationships (numbered previous delta)), ∃ row,
        mergeRelationshipGroup (ofLex group.1).1 (ofLex group.1).2 group.2 = .ok row := by
    rintro ⟨key, group⟩ hgroup
    obtain ⟨hrows, hne⟩ := (mem_groupBy_iff _ _).mp hgroup
    obtain ⟨first, rest, hfirst⟩ := List.exists_cons_of_ne_nil hne
    have hhead : group.head? = some first := by rw [hfirst, List.head?_cons]
    have hcount : group.length ≤ u32Max := by
      have hlength : ∀ rows : List (RelationshipRecord ω), (withEndpoints (ofLex key) rows).length =
          ((rows.map RelationshipRecord.endpoints).filter (· = ofLex key)).length := by
        intro rows
        rw [List.filter_map, List.length_map]
        rfl
      have hgroup : group = readRelationships (withEndpoints (ofLex key) (numbered previous delta)) :=
        hrows.trans (readRelationships_filter_key (ofLex key) _)
      rw [hgroup, readRelationships, List.length_map, hlength, numbered_map fun _ _ => rfl, ← hlength]
      exact hfits _
    exact ⟨_, bind_eq_ok.mpr ⟨first, okOr_eq_ok_iff.mpr hhead, if_pos hcount⟩⟩
  obtain ⟨unfiltered, hunfiltered⟩ := exists_mapM_ok hgroups
  obtain ⟨initialId, deltaRows, hinitial, hdelta⟩ :=
    hids.rebaseIds "relationship human_readable_id overflow"
  rw [← readRelationships_numbered hinitial hdelta] at hunfiltered
  exact ⟨_, bind_eq_ok.mpr ⟨_, hinitial, bind_eq_ok.mpr ⟨_, hdelta,
    bind_eq_ok.mpr ⟨_, hunfiltered, rfl⟩⟩⟩⟩

theorem mergeRelationships_countsOn (previous delta : List (RelationshipRecord ω))
    (entityTitles : List String) :
    CountsOn previous delta (GroupsFit (previous ++ delta))
      (mergeRelationships previous delta entityTitles)
      (GroupsCounting RelationshipRecord.endpoints MergedRelationshipRow.endpoints
        (fun endpoints => endpoints.1 ∈ entityTitles ∧ endpoints.2 ∈ entityTitles)
        MergedRelationshipRow.humanReadableId previous delta) := by
  constructor
  · intro merged h
    obtain ⟨unfiltered, hunfiltered, rfl⟩ := mergeRelationships_decodes h
    refine groupsCounting_of (fun _ _ => rfl) ?_ (fun endpoints => ?_) fun row hrow => ?_
    · have hkeys : (unfiltered.map MergedRelationshipRow.endpoints).Nodup := by
        have hsorted := groupBy_keys_nodup RelationshipTableRow.key
          (readRelationships (numbered previous delta))
        rw [decodes_keys hunfiltered] at hsorted
        have hmap : unfiltered.map (fun row => toLex row.endpoints) =
            (unfiltered.map MergedRelationshipRow.endpoints).map toLex := by rw [List.map_map]; rfl
        rw [hmap] at hsorted
        exact hsorted.of_map
      rw [← withCombinedDegrees_map (fun _ _ => rfl) unfiltered] at hkeys
      exact hkeys.sublist (List.filter_sublist.map _)
    · rw [← mem_endpoints_of_decodes hunfiltered,
        ← withCombinedDegrees_map (f := MergedRelationshipRow.endpoints) (fun _ _ => rfl) unfiltered]
      simp only [List.mem_map, List.mem_filter, decide_eq_true_eq]
      constructor
      · rintro ⟨row, ⟨hrow, hkept⟩, rfl⟩
        exact ⟨hkept, row, hrow, rfl⟩
      · rintro ⟨hkept, row, hrow, rfl⟩
        exact ⟨row, ⟨hrow, hkept⟩, rfl⟩
    · obtain ⟨row', hrow', rfl⟩ := mem_withCombinedDegrees (List.mem_filter.mp hrow).1
      obtain ⟨first, hfirst, -, hid⟩ := identity_of_decodes hunfiltered hrow'
      show _ = some row'.humanReadableId
      rw [← List.head?_filter, hid]
      exact congrArg (Option.map humanReadableId) hfirst
  · exact fun hids hfits => mergeRelationships_succeeds hids hfits entityTitles
  · intro h
    have hlength : (readRelationships delta).length = delta.length := List.length_map _
    rw [← hlength] at h
    exact rebaseIds_overflow h _ _

/-! ### Any number of updates -/

/-- In each table, no two rows have one human-readable id. -/
structure IdsUnique (tables : Tables ω) : Prop where
  documents : ((rowsOf tables.documents).map humanReadableId).Nodup
  entities : ((rowsOf tables.entities).map humanReadableId).Nodup
  relationships : ((rowsOf tables.relationships).map humanReadableId).Nodup
  textUnits : ((rowsOf tables.textUnits).map humanReadableId).Nodup
  covariates : ((rowsOf tables.covariates).map humanReadableId).Nodup

/-- One update keeps the ids distinct. -/
theorem updateIndex_idsUnique {previous final : Tables ω} {input : UpdateInput ω}
    (h : updateIndex previous input = .ok final) (hprevious : IdsUnique previous) :
    IdsUnique final := by
  have hupdates := updateIndex_ok h
  obtain ⟨oldD, newD, mergedD, holdD, -, hmergedD, hfinalD⟩ := hupdates.documents
  obtain ⟨oldE, newE, mergedE, mapping, oldR, newR, mergedR, entityS, relationshipS, oldT, newT,
    mergedT, holdE, -, hmergedE, holdR, -, hmergedR, holdT, -, hmergedT, hfinalE, hfinalR,
    hfinalT⟩ := hupdates.graph
  obtain ⟨hdocuments, hentities, hrelationships, htextUnits, hcovariates⟩ := hprevious
  rw [holdD] at hdocuments
  rw [holdE] at hentities
  rw [holdR] at hrelationships
  rw [holdT] at htextUnits
  constructor
  · rw [hfinalD]
    exact ((concatenateWithRebasedIds_countsOn oldD newD).ok _ hmergedD).unique hdocuments
  · rw [hfinalE, rowsOf_some, summarized_map_humanReadableId]
    refine ((mergeEntities_countsOn oldE newE).ok _ ?_).unique hentities
    exact map_eq_ok.mpr ⟨_, hmergedE, rfl⟩
  · rw [hfinalR, rowsOf_some, summarizedRelationships_map_humanReadableId]
    exact ((mergeRelationships_countsOn oldR newR _).ok _ hmergedR).unique hrelationships
  · rw [hfinalT]
    exact ((mergeTextUnits_countsOn oldT newT mapping).ok _ hmergedT).unique htextUnits
  · have hmerged := hupdates.covariates
    generalize final.covariates = covariates at hmerged ⊢
    cases hmerged with
    | merged hold hnew hrows =>
      rw [hold] at hcovariates
      exact ((concatenateWithRebasedIds_countsOn _ _).ok _ hrows).unique hcovariates
    | skipped _ => exact hcovariates

/-- **Ids stay distinct.**  Each of the five merges keeps the previous rows with their ids and gives
the delta rows that survive new ones in their order, and fails when one does not fit; and in any run
of updates, whatever they bring, the ids of each table stay distinct. -/
theorem merges_count_on :
    (∀ previous delta : List DocumentRecord, CountsOn previous delta True
      (concatenateWithRebasedIds previous delta) (AppendsCounting SameContents previous delta)) ∧
    (∀ previous delta : List CovariateRecord, CountsOn previous delta True
      (concatenateWithRebasedIds previous delta) (AppendsCounting SameContents previous delta)) ∧
    (∀ previous delta mapping, CountsOn previous delta True (mergeTextUnits previous delta mapping)
      (AppendsCounting SameButEntityIds previous delta)) ∧
    (∀ previous delta, CountsOn previous delta (FrequenciesFit (previous ++ delta))
      ((mergeEntities previous delta).map Prod.fst)
      (GroupsCounting EntityRecord.title MergedEntityRow.title (fun _ => True)
        MergedEntityRow.humanReadableId previous delta)) ∧
    (∀ (previous delta : List (RelationshipRecord ω)) entityTitles, CountsOn previous delta
      (GroupsFit (previous ++ delta)) (mergeRelationships previous delta entityTitles)
      (GroupsCounting RelationshipRecord.endpoints MergedRelationshipRow.endpoints
        (fun endpoints => endpoints.1 ∈ entityTitles ∧ endpoints.2 ∈ entityTitles)
        MergedRelationshipRow.humanReadableId previous delta)) ∧
    ∀ (first : Tables ω) inputs final, IdsUnique first →
      (updateSystem fun _ => True).Run first inputs final → IdsUnique final := by
  refine ⟨concatenateWithRebasedIds_countsOn, concatenateWithRebasedIds_countsOn,
    mergeTextUnits_countsOn, mergeEntities_countsOn, mergeRelationships_countsOn,
    fun first inputs final hfirst h => ?_⟩
  induction h with
  | nil => exact hfirst
  | snoc _ hstep ih => exact updateIndex_idsUnique hstep.2 ih

end Relationships

/-- A merge of entities that finds one title again, and an update, with ids that are all the
same. -/
theorem merges_count_on_sample :
    (∃ merged, (mergeEntities (sampleEntities [("old-a", 0, "A")])
        (sampleEntities [("new-b", 0, "B"), ("new-a", 0, "A"), ("new-c", 0, "C")])).map Prod.fst =
          .ok merged ∧
      GroupsCounting EntityRecord.title MergedEntityRow.title (fun _ => True)
        MergedEntityRow.humanReadableId (sampleEntities [("old-a", 0, "A")])
        (sampleEntities [("new-b", 0, "B"), ("new-a", 0, "A"), ("new-c", 0, "C")]) merged) ∧
    IdsUnique (ω := ℕ) (sampleTables
      (sampleEntities [("old-a", 0, "A"), ("new-b", 1, "B"), ("new-c", 2, "C")])
      [sampleTextUnit "old" 0 [] [] [], sampleTextUnit "new" 1 [] [] [],
        sampleTextUnit "newer" 2 [] [] []]) := by
  constructor
  · have hcounts := (merges_count_on (ω := ℕ)).2.2.2.1 (sampleEntities [("old-a", 0, "A")])
      (sampleEntities [("new-b", 0, "B"), ("new-a", 0, "A"), ("new-c", 0, "C")])
    have hfits : FrequenciesFit (sampleEntities [("old-a", 0, "A")] ++
        sampleEntities [("new-b", 0, "B"), ("new-a", 0, "A"), ("new-c", 0, "C")]) := by
      intro title
      rw [List.flatMap_eq_nil_iff.mpr fun row hrow => ?_]
      · decide
      · rw [sampleEntities, sampleEntities, ← List.map_append] at hrow
        obtain ⟨_, -, rfl⟩ := List.mem_map.mp (List.mem_filter.mp hrow).1
        rfl
    obtain ⟨merged, hmerged⟩ :=
      hcounts.succeeds ⟨by decide, by decide, by decide, by decide⟩ hfits
    exact ⟨merged, hmerged, hcounts.ok merged hmerged⟩
  · exact merges_count_on.2.2.2.2.2
      (sampleTables (sampleEntities [("old-a", 0, "A")]) [sampleTextUnit "old" 0 [] [] []])
      [sampleInput (sampleTables (sampleEntities [("new-b", 0, "B"), ("new-c", 0, "C")])
        [sampleTextUnit "new" 0 [] [] [], sampleTextUnit "newer" 0 [] [] []])] _
      ⟨by decide, by decide, by decide, by decide, by decide⟩ (.single ⟨trivial, rfl⟩)

end GraphLoom.Update
