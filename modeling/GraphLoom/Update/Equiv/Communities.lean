import GraphLoom.Update.Equiv.References

/-!
# Communities across updates

The delta communities are numbered on from the largest previous one, and their parents and their
reports follow through the same mapping.  When the delta ids are not negative the new numbers are
above all previous ones, so parents, reports and titles agree with the communities
(`mergeCommunities_renumbers`), and no community gets a number twice in any number of updates.
-/

namespace GraphLoom.Update

open Foundation

variable {ω : Type}

/-- The communities of the rows that have one. -/
def communityIds (rows : List CommunityRecord) : List ℤ := rows.filterMap CommunityRecord.community

/-- What a mapping takes a community to; one that it does not have stays. -/
def mapped (mapping : CommunityMapping) (community : ℤ) : ℤ :=
  (mapping.lookup community).getD community

/-- A mapping that puts the delta communities after the previous ones. -/
structure Renumbers (previous delta : List CommunityRecord) (mapping : CommunityMapping) :
    Prop where
  injective : ∀ a ∈ communityIds delta, ∀ b ∈ communityIds delta,
    mapped mapping a = mapped mapping b → a = b
  increasing : ∀ a ∈ communityIds delta, ∀ b ∈ communityIds delta,
    a < b → mapped mapping a < mapped mapping b
  root : mapped mapping (-1) = -1
  above : ∀ a ∈ communityIds delta, ∀ old ∈ communityIds previous, old < mapped mapping a
  fits : ∀ a ∈ communityIds delta,
    mapped mapping a = a + maxCommunity previous + 1 ∧ mapped mapping a ≤ i64Max

/-- The human-readable id and the title are those of the community. -/
def Titled (row : CommunityRecord) : Prop :=
  row.humanReadableId = row.community.getD 0 ∧
    row.title = "Community " ++ toString (row.community.getD 0)

/-- The report is about the community of the row, and says the same parent. -/
def IsReportOf (report : CommunityReportRecord ω) (row : CommunityRecord) : Prop :=
  report.community = row.community ∧ report.parent = row.parent

/-- The previous communities stay, and the delta ones follow with their numbers and their parents
mapped. -/
structure MergesCommunities (mapping : CommunityMapping)
    (previous delta before after : List CommunityRecord) : Prop where
  untouched : List.Forall₂ (fun old row => row.community = old.community ∧ row.parent = old.parent)
    previous before
  remapped : List.Forall₂ (fun new row => row.community = new.community.map (mapped mapping) ∧
    row.parent = new.parent.map (mapped mapping)) delta after
  edges : ∀ x x' y y', (x, x') ∈ delta.zip after → (y, y') ∈ delta.zip after →
    x.parent = y.community → x'.parent = y'.community
  titled : ∀ row ∈ before ++ after, Titled row

/-- The reports are mapped as the communities are, so they go with them. -/
structure MergesReports (mapping : CommunityMapping)
    (previous delta before after : List CommunityRecord)
    (previousReports deltaReports beforeReports afterReports : List (CommunityReportRecord ω)) :
    Prop where
  untouched : List.Forall₂ (fun old row => row.community = old.community ∧ row.parent = old.parent)
    previousReports beforeReports
  remapped : List.Forall₂ (fun new row => row.community = new.community.map (mapped mapping) ∧
    row.parent = new.parent.map (mapped mapping)) deltaReports afterReports
  previousReport : ∀ x x' report report', (x, x') ∈ previous.zip before →
    (report, report') ∈ previousReports.zip beforeReports → IsReportOf report x →
      IsReportOf report' x'
  deltaReport : ∀ x x' report report', (x, x') ∈ delta.zip after →
    (report, report') ∈ deltaReports.zip afterReports → IsReportOf report x →
      IsReportOf report' x'
  humanReadableIds : ∀ report ∈ beforeReports ++ afterReports,
    report.humanReadableId = report.community.getD 0

/-! ### The mapping -/

section Mapping

variable {previous delta : List CommunityRecord} {mapping : CommunityMapping}

theorem le_maxCommunity {row : CommunityRecord} (h : row ∈ previous) :
    row.community.getD 0 ≤ maxCommunity previous := by
  have hmem : row.community.getD 0 ∈ previous.map fun row => row.community.getD 0 :=
    List.mem_map_of_mem (f := fun row : CommunityRecord => row.community.getD 0) h
  unfold maxCommunity
  cases hmax : (previous.map fun row => row.community.getD 0).max? with
  | none =>
    rw [List.max?_eq_none_iff] at hmax
    rw [hmax] at hmem
    exact absurd hmem List.not_mem_nil
  | some maximum => exact (List.max?_eq_some_iff.mp hmax).2 _ hmem

theorem le_maxCommunity_of_mem {community : ℤ} (h : community ∈ communityIds previous) :
    community ≤ maxCommunity previous := by
  obtain ⟨row, hrow, hcommunity⟩ := List.mem_filterMap.mp h
  have hle := le_maxCommunity hrow
  rwa [hcommunity] at hle

/-- Each value is inserted with the number that it gets. -/
theorem foldlM_communityMapping {oldMax : ℤ} {values : List ℤ} {start : CommunityMapping}
    (h : values.foldlM (fun (mapping : CommunityMapping) value => do
      let mapped ← okOr (invalidUpdate "community ID overflow")
        ((checkedAdd value oldMax).bind fun value => checkedAdd value 1)
      return mapping.insert value mapped) start = .ok mapping) :
    (∀ value ∈ values, value + oldMax + 1 ≤ i64Max) ∧
      ∀ value, mapping.lookup value =
        if value ∈ values then some (value + oldMax + 1) else start.lookup value := by
  induction values generalizing start with
  | nil =>
    obtain rfl := Except.ok.inj h
    exact ⟨fun value hvalue => absurd hvalue List.not_mem_nil, fun value => rfl⟩
  | cons value values ih =>
    rw [List.foldlM_cons] at h
    obtain ⟨next, hnext, h⟩ := bind_eq_ok.mp h
    obtain ⟨number, hnumber, hnext⟩ := bind_eq_ok.mp hnext
    rw [okOr_eq_ok_iff, Option.bind_eq_some_iff] at hnumber
    obtain ⟨sum, hsum, hnumber⟩ := hnumber
    rw [checkedAdd_eq_some_iff] at hsum hnumber
    obtain rfl := Except.ok.inj hnext
    obtain ⟨hfits, hlookup⟩ := ih h
    constructor
    · intro value' hvalue'
      rcases List.mem_cons.mp hvalue' with rfl | hvalue'
      · omega
      · exact hfits value' hvalue'
    · intro value'
      rw [hlookup value']
      by_cases hvalues : value' ∈ values
      · rw [if_pos hvalues, if_pos (List.mem_cons_of_mem _ hvalues)]
      · rw [if_neg hvalues]
        by_cases heq : value' = value
        · have hsame : number = value' + oldMax + 1 := by omega
          rw [heq, AList.lookup_insert, if_pos (List.mem_cons_self ..), hsame, heq]
        · rw [AList.lookup_insert_ne heq, if_neg]
          rw [List.mem_cons, not_or]
          exact ⟨heq, hvalues⟩

/-- What the mapping takes a number to. -/
theorem mapped_eq (h : communityMapping (maxCommunity previous) delta = .ok mapping) (a : ℤ) :
    mapped mapping a =
      if a ∈ communityIds delta then a + maxCommunity previous + 1 else a := by
  unfold communityMapping at h
  have hlookup : mapping.lookup a = if a ∈ communityIds delta then
      some (a + maxCommunity previous + 1)
    else ((∅ : CommunityMapping).insert (-1) (-1)).lookup a := (foldlM_communityMapping h).2 a
  rw [mapped, hlookup]
  by_cases ha : a ∈ communityIds delta
  · rw [if_pos ha, if_pos ha]
    rfl
  · rw [if_neg ha, if_neg ha]
    by_cases hroot : a = -1
    · rw [hroot, AList.lookup_insert]
      rfl
    · rw [AList.lookup_insert_ne hroot]
      rfl

/-- Nonnegative delta communities are numbered on. -/
theorem communityMapping_renumbers (h : communityMapping (maxCommunity previous) delta = .ok mapping)
    (hdelta : ∀ a ∈ communityIds delta, 0 ≤ a) : Renumbers previous delta mapping where
  injective a ha b hb heq := by
    rw [mapped_eq h, mapped_eq h, if_pos ha, if_pos hb] at heq
    omega
  increasing a ha b hb hlt := by
    rw [mapped_eq h, mapped_eq h, if_pos ha, if_pos hb]
    omega
  root := by
    rw [mapped_eq h, if_neg]
    intro hroot
    have hle := hdelta _ hroot
    omega
  above a ha old hold := by
    have hle := le_maxCommunity_of_mem hold
    have hnonneg := hdelta a ha
    rw [mapped_eq h, if_pos ha]
    omega
  fits a ha := by
    rw [mapped_eq h, if_pos ha]
    refine ⟨rfl, ?_⟩
    unfold communityMapping at h
    exact (foldlM_communityMapping h).1 a ha

/-- The only error is a number that does not fit. -/
theorem foldlM_communityMapping_error {oldMax : ℤ} {values : List ℤ} {start : CommunityMapping}
    {error : GraphLoomError}
    (h : values.foldlM (fun (mapping : CommunityMapping) value => do
      let mapped ← okOr (invalidUpdate "community ID overflow")
        ((checkedAdd value oldMax).bind fun value => checkedAdd value 1)
      return mapping.insert value mapped) start = .error error) :
    error = invalidUpdate "community ID overflow" := by
  induction values generalizing start with
  | nil => exact nomatch h
  | cons value values ih =>
    rw [List.foldlM_cons] at h
    cases hsum : (checkedAdd value oldMax).bind fun value => checkedAdd value 1 with
    | none =>
      rw [hsum] at h
      exact (Except.error.inj h).symm
    | some number =>
      rw [hsum] at h
      exact ih h

end Mapping

/-! ### One merge -/

section Merge

variable {previous delta merged : List CommunityRecord} {mapping : CommunityMapping}

theorem mergeCommunities_ok (h : mergeCommunities previous delta = .ok (merged, mapping)) :
    communityMapping (maxCommunity previous) delta = .ok mapping ∧
      ∃ before after, merged = before ++ after ∧
        MergesCommunities mapping previous delta before after := by
  unfold mergeCommunities at h
  obtain ⟨mapping, hmapping, h⟩ := bind_eq_ok.mp h
  cases Except.ok.inj h
  refine ⟨hmapping, _, _, List.map_append, ?_⟩
  have hremapped : List.Forall₂ (fun new row : CommunityRecord =>
      row.community = new.community.map (mapped mapping) ∧
        row.parent = new.parent.map (mapped mapping)) delta
      ((delta.map fun row =>
        { row with
          community := remapInteger mapping row.community
          parent := remapInteger mapping row.parent }).map fun row =>
        { row with
          title := "Community " ++ toString (row.community.getD 0)
          humanReadableId := row.community.getD 0 }) := by
    rw [List.map_map, List.forall₂_map_right_iff, List.forall₂_same]
    exact fun row _ => ⟨rfl, rfl⟩
  refine ⟨?_, hremapped, fun x x' y y' hx hy hedge => ?_, fun row hrow => ?_⟩
  · rw [List.forall₂_map_right_iff, List.forall₂_same]
    exact fun row _ => ⟨rfl, rfl⟩
  · rw [(List.forall₂_zip hremapped hx).2, hedge, (List.forall₂_zip hremapped hy).1]
  · rw [← List.map_append, List.mem_map] at hrow
    obtain ⟨row', -, rfl⟩ := hrow
    exact ⟨rfl, rfl⟩

theorem mergeCommunityReports_eq (before after : List CommunityRecord)
    (h : MergesCommunities mapping previous delta before after)
    (previousReports deltaReports : List (CommunityReportRecord ω)) :
    ∃ beforeReports afterReports,
      mergeCommunityReports previousReports deltaReports mapping = beforeReports ++ afterReports ∧
      MergesReports mapping previous delta before after previousReports deltaReports beforeReports
        afterReports := by
  refine ⟨_, _, List.map_append, ?_⟩
  have huntouched : List.Forall₂ (fun old row : CommunityReportRecord ω =>
      row.community = old.community ∧ row.parent = old.parent) previousReports
      (previousReports.map fun row => { row with humanReadableId := row.community.getD 0 }) := by
    rw [List.forall₂_map_right_iff, List.forall₂_same]
    exact fun row _ => ⟨rfl, rfl⟩
  have hremapped : List.Forall₂ (fun new row : CommunityReportRecord ω =>
      row.community = new.community.map (mapped mapping) ∧
        row.parent = new.parent.map (mapped mapping)) deltaReports
      ((deltaReports.map fun row =>
        { row with
          community := remapInteger mapping row.community
          parent := remapInteger mapping row.parent }).map fun row =>
        { row with humanReadableId := row.community.getD 0 }) := by
    rw [List.map_map, List.forall₂_map_right_iff, List.forall₂_same]
    exact fun row _ => ⟨rfl, rfl⟩
  refine ⟨huntouched, hremapped, fun x x' report report' hx hreport his => ?_,
    fun x x' report report' hx hreport his => ?_, fun report hreport => ?_⟩
  · obtain ⟨hcommunity, hparent⟩ := List.forall₂_zip h.untouched hx
    obtain ⟨hcommunity', hparent'⟩ := List.forall₂_zip huntouched hreport
    exact ⟨by rw [hcommunity', hcommunity, his.1], by rw [hparent', hparent, his.2]⟩
  · obtain ⟨hcommunity, hparent⟩ := List.forall₂_zip h.remapped hx
    obtain ⟨hcommunity', hparent'⟩ := List.forall₂_zip hremapped hreport
    exact ⟨by rw [hcommunity', hcommunity, his.1], by rw [hparent', hparent, his.2]⟩
  · rw [← List.map_append, List.mem_map] at hreport
    obtain ⟨report', -, rfl⟩ := hreport
    rfl

theorem mergeCommunities_overflow
    (h : ∃ a ∈ communityIds delta, i64Max < a + maxCommunity previous + 1) :
    mergeCommunities previous delta = .error (invalidUpdate "community ID overflow") := by
  obtain ⟨a, ha, hmax⟩ := h
  cases hmapping : communityMapping (maxCommunity previous) delta with
  | ok mapping =>
    unfold communityMapping at hmapping
    have hfits := (foldlM_communityMapping hmapping).1 a ha
    omega
  | error error =>
    rw [mergeCommunities, hmapping]
    unfold communityMapping at hmapping
    rw [foldlM_communityMapping_error hmapping]
    rfl

/-- The communities of the result are the previous ones and the mapped delta ones. -/
theorem MergesCommunities.communityIds {before after : List CommunityRecord}
    (h : MergesCommunities mapping previous delta before after) :
    communityIds (before ++ after) =
      communityIds previous ++ (communityIds delta).map (mapped mapping) := by
  have hbefore : before.map CommunityRecord.community = previous.map CommunityRecord.community := by
    rw [← List.forall₂_eq_eq_eq, List.forall₂_map_left_iff, List.forall₂_map_right_iff]
    exact h.untouched.flip.imp fun row old hrow => hrow.1
  have hafter : after.map CommunityRecord.community =
      delta.map fun row => row.community.map (mapped mapping) := by
    rw [← List.forall₂_eq_eq_eq, List.forall₂_map_left_iff, List.forall₂_map_right_iff]
    exact h.remapped.flip.imp fun row new hrow => hrow.1
  have hids : ∀ rows : List CommunityRecord,
      Update.communityIds rows = (rows.map CommunityRecord.community).filterMap id := by
    intro rows
    rw [List.filterMap_map]
    rfl
  rw [hids, List.map_append, List.filterMap_append, hbefore, hafter, ← hids, List.filterMap_map]
  congr 1
  unfold Update.communityIds
  rw [List.map_filterMap]
  rfl

theorem mergeCommunities_nodup (h : mergeCommunities previous delta = .ok (merged, mapping))
    (hprevious : (communityIds previous).Nodup) (hdelta : (communityIds delta).Nodup)
    (hnonneg : ∀ a ∈ communityIds delta, 0 ≤ a) : (communityIds merged).Nodup := by
  obtain ⟨hmapping, before, after, rfl, hmerges⟩ := mergeCommunities_ok h
  have hrenumbers := communityMapping_renumbers hmapping hnonneg
  rw [hmerges.communityIds, List.nodup_append]
  refine ⟨hprevious, hdelta.map_on fun a ha b hb => hrenumbers.injective a ha b hb, ?_⟩
  intro old hold new hnew
  obtain ⟨a, ha, rfl⟩ := List.mem_map.mp hnew
  exact (hrenumbers.above a ha old hold).ne

end Merge

/-! ### Any number of updates -/

/-- The communities of a delta: distinct, and none negative. -/
def CommunitiesNumbered (tables : Tables ω) : Prop :=
  (communityIds (rowsOf tables.communities)).Nodup ∧
    ∀ a ∈ communityIds (rowsOf tables.communities), 0 ≤ a

/-- **Communities are numbered on.**  A merge maps the delta communities increasingly past the
previous ones, their parents and their reports with them, and fails when a number does not fit; and
no community gets a number twice in any number of updates. -/
theorem mergeCommunities_renumbers [Zero ω] [Add ω] [Div ω] [NatCast ω] :
    (∀ previous delta, (∀ a ∈ communityIds delta, 0 ≤ a) →
      (∀ merged mapping, mergeCommunities previous delta = .ok (merged, mapping) →
        Renumbers previous delta mapping ∧ ∃ before after, merged = before ++ after ∧
          MergesCommunities mapping previous delta before after ∧
          ∀ previousReports deltaReports : List (CommunityReportRecord ω),
            ∃ beforeReports afterReports,
              mergeCommunityReports previousReports deltaReports mapping =
                beforeReports ++ afterReports ∧
              MergesReports mapping previous delta before after previousReports deltaReports
                beforeReports afterReports) ∧
      ((∃ a ∈ communityIds delta, i64Max < a + maxCommunity previous + 1) →
        mergeCommunities previous delta = .error (invalidUpdate "community ID overflow"))) ∧
    ∀ (first : Tables ω) inputs final, (communityIds (rowsOf first.communities)).Nodup →
      (updateSystem CommunitiesNumbered).Run first inputs final →
        (communityIds (rowsOf final.communities)).Nodup := by
  constructor
  · intro previous delta hdelta
    refine ⟨fun merged mapping h => ?_, mergeCommunities_overflow⟩
    obtain ⟨hmapping, before, after, hmerged, hmerges⟩ := mergeCommunities_ok h
    exact ⟨communityMapping_renumbers hmapping hdelta, before, after, hmerged, hmerges,
      mergeCommunityReports_eq before after hmerges⟩
  · intro first inputs final hfirst h
    induction h with
    | nil => exact hfirst
    | snoc _ hstep ih =>
      obtain ⟨⟨hnodup, hnonneg⟩, hupdate⟩ := hstep
      obtain ⟨old, new, merged, -, -, mapping, hold, hnew, hmerge, -, -, hfinal, -⟩ :=
        (updateIndex_ok hupdate).communities
      rw [hold, rowsOf_some] at ih
      rw [hnew, rowsOf_some] at hnodup hnonneg
      rw [hfinal, rowsOf_some]
      exact mergeCommunities_nodup hmerge ih hnodup hnonneg

/-! ### A sample update -/

/-- An index with these communities, each a child of the one before. -/
def sampleCommunities (rows : List (ℤ × ℤ)) : List CommunityRecord :=
  rows.map fun (community, parent) =>
    { sampleCommunity "" community [] [] with parent := some parent }

/-- Tables with these communities and nothing else. -/
def sampleCommunityTables (rows : List (ℤ × ℤ)) : Tables ℕ :=
  { sampleTables [] [] with communities := some (sampleCommunities rows) }

/-- Two hierarchies with the same numbers. -/
theorem mergeCommunities_renumbers_sample :
    (∃ mapping, Renumbers (sampleCommunities [(0, -1), (1, 0)])
        (sampleCommunities [(0, -1), (1, 0)]) mapping ∧
      mapped mapping 0 = 2 ∧ mapped mapping 1 = 3) ∧
    (communityIds (rowsOf
      (sampleCommunityTables [(0, -1), (1, 0), (2, -1), (3, 2)]).communities)).Nodup := by
  constructor
  · have hmerge := (mergeCommunities_renumbers (ω := ℕ)).1 (sampleCommunities [(0, -1), (1, 0)])
      (sampleCommunities [(0, -1), (1, 0)]) (by decide)
    obtain ⟨hrenumbers, -⟩ := hmerge.1 _ _ rfl
    exact ⟨_, hrenumbers, by decide, by decide⟩
  · exact mergeCommunities_renumbers.2 (sampleCommunityTables [(0, -1), (1, 0)])
      [sampleInput (sampleCommunityTables [(0, -1), (1, 0)])] _ (by decide)
      (.single ⟨⟨by decide, by decide⟩, rfl⟩)

end GraphLoom.Update
