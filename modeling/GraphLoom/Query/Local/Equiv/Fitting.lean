import GraphLoom.Query.Local.Equiv.Recount

/-!
# The tables of the sections and their records

The sections of the relationships and of the covariates have tables with the longest prefixes that
fit, and with a session their records are those of the tables
(`buildRelationshipContextFromSelection_tabled`).
-/

namespace GraphLoom.Query.Local

open Foundation Std

/-! ### Records -/

/-- A record of what is in a table, with all of its candidates. -/
structure Recorded (candidates : SectionCandidates) (record : SectionExplainability) : Prop where
  selectedRecordIds : record.selectedRecordIds = candidates.ids.take record.selectedCount
  selectedCount : record.selectedCount ≤ candidates.ids.length
  candidateCount : record.candidateCount = candidates.ids.length
  truncated : record.truncated = decide (record.selectedCount < candidates.ids.length)
  selected : (record.candidates.filter (·.selected)).map (·.id) = record.selectedRecordIds
  parts : ∃ counted filtered, record.candidates = counted ++ filtered ∧
    counted.map (·.id) = candidates.ids ∧ filtered.map (·.id) = candidates.filtered ∧
    (∀ candidate ∈ counted, nonToken candidate.reason = false) ∧
    ∀ candidate ∈ filtered, nonToken candidate.reason = true ∧ candidate.selected = false

variable {candidates : SectionCandidates}

theorem Recorded.tokens {record : SectionExplainability}
    (h : Recorded candidates record) (tokensUsed : ℕ) :
    Recorded candidates { record with tokensUsed := tokensUsed } :=
  ⟨h.selectedRecordIds, h.selectedCount, h.candidateCount, h.truncated, h.selected, h.parts⟩

theorem buildRecordSectionExplainability_recorded {α : Type} {spec : SectionExplainabilitySpec}
    {fitted : FittedTable} {records : List α} {filtered : List ExplainabilityCandidate}
    {candidateFromRecord : α → ExplainabilityCandidate}
    (hreason : nonToken (some spec.selectedReason) = false)
    (hids : records.map (fun record => (candidateFromRecord record).id) = candidates.ids)
    (hfiltered : filtered.map (·.id) = candidates.filtered)
    (hnonToken : ∀ candidate ∈ filtered,
      nonToken candidate.reason = true ∧ candidate.selected = false)
    (hcount : fitted.candidateCount = candidates.ids.length)
    (hselected : fitted.selectedCount ≤ candidates.ids.length) :
    Recorded candidates
      (buildRecordSectionExplainability spec fitted records filtered candidateFromRecord) := by
  have hrecordIds : ((records.take fitted.selectedCount).map fun record =>
      (candidateFromRecord record).id) = candidates.ids.take fitted.selectedCount := by
    rw [← hids, List.map_take]
  have hdecide : ∀ (candidate : ExplainabilityCandidate) (index : ℕ),
      (decideCandidate spec fitted candidate index).id = candidate.id ∧
        ((decideCandidate spec fitted candidate index).selected =
          decide (index < fitted.selectedCount)) ∧
        nonToken (decideCandidate spec fitted candidate index).reason = false := by
    intro candidate index
    unfold decideCandidate
    split_ifs with hindex
    · exact ⟨rfl, (decide_eq_true hindex).symm, hreason⟩
    · exact ⟨rfl, (decide_eq_false hindex).symm, rfl⟩
  refine ⟨hrecordIds, hselected, hcount, ?_, ?_, ?_⟩
  · show decide (fitted.selectedCount < fitted.candidateCount) = _
    rw [hcount]
    rfl
  · have hnone : filtered.filter (·.selected) = [] := by
      refine List.filter_eq_nil_iff.mpr fun candidate hcandidate => ?_
      rw [(hnonToken candidate hcandidate).2]
      exact Bool.false_ne_true
    have hfirst : (records.zipIdx.filter fun record => record.2 < fitted.selectedCount).map (·.1) =
        records.take fitted.selectedCount := by
      have h := map_filter_zipIdx records fitted.selectedCount 0
      rwa [Nat.zero_add] at h
    unfold buildRecordSectionExplainability
    dsimp only
    rw [List.filter_append, hnone, List.append_nil, List.filter_map, List.map_map, ← hfirst,
      List.map_map]
    simp only [Function.comp_def, hdecide]
  · refine ⟨_, filtered, rfl, ?_, hfiltered, ?_, hnonToken⟩
    · rw [List.map_map, ← hids]
      simp only [Function.comp_def, hdecide]
      have hfst := congrArg (List.map fun record => (candidateFromRecord record).id)
        (List.zipIdx_map_fst 0 records)
      rwa [List.map_map] at hfst
    · intro candidate hcandidate
      obtain ⟨record, -, rfl⟩ := List.mem_map.mp hcandidate
      exact (hdecide _ _).2.2

theorem emptySectionExplainability_recorded
    (hids : candidates.ids = []) (hfiltered : candidates.filtered = []) (kind : ContextSectionKind)
    (name : Option String) (tokenBudget : ℕ) :
    Recorded candidates (emptySectionExplainability kind name tokenBudget) := by
  refine ⟨?_, Nat.zero_le _, ?_, ?_, rfl, [], [], rfl, hids.symm, hfiltered.symm, ?_, ?_⟩
  · rw [hids]
    rfl
  · rw [hids]
    rfl
  · rw [hids]
    rfl
  · exact fun _ hmem => absurd hmem List.not_mem_nil
  · exact fun _ hmem => absurd hmem List.not_mem_nil

namespace LocalContextBuilder

variable (builder : LocalContextBuilder)

/-! ### Sections of an attempt -/

/-- A table has the longest prefix of the rows that fits, and its record is that of the table. -/
def Tabled (maxTokens : ℕ) (explainability : Bool) (expansionSection : ExpansionSection)
    (count : ℕ) (table : ContextTable) (record? : Option SectionExplainability) : Prop :=
  let candidates := expansionSection.candidates count
  ∃ selectedCount, table = ⟨candidates.columns, candidates.rows.take selectedCount⟩ ∧
    LongestPrefix
      (builder.RowsFit maxTokens expansionSection.title candidates.columns candidates.rows)
      candidates.rows.length selectedCount ∧
    match record? with
    | some record => explainability = true ∧ record.kind = expansionSection.kind ∧
      record.name = expansionSection.name ∧ record.selectedCount = selectedCount ∧
      Recorded candidates record
    | none => explainability = false

variable {selectedEntities : List Entity} {maxTokens entityTokens : ℕ} {explainability : Bool}

/-- A section of an attempt, or that there is none. -/
def TabledSection (maxTokens : ℕ) (explainability : Bool) (expansionSection : ExpansionSection)
    (count : ℕ) (columns : List String) : Option ContextSection → Prop
  | some contextSection => builder.Tabled maxTokens explainability expansionSection count
    contextSection.table contextSection.explainability
  | none => builder.Tabled maxTokens explainability expansionSection count ⟨columns, []⟩
    (capture explainability
      (emptySectionExplainability expansionSection.kind expansionSection.name maxTokens))

variable {count : ℕ}

/-- A section without rows. -/
theorem tabled_empty {expansionSection : ExpansionSection} {table : ContextTable}
    (htable : table = ⟨(expansionSection.candidates count).columns, []⟩)
    (hrows : (expansionSection.candidates count).rows = [])
    {record : SectionExplainability} (hkind : record.kind = expansionSection.kind)
    (hname : record.name = expansionSection.name) (hcount : record.selectedCount = 0)
    (hrecord : explainability = true → Recorded (expansionSection.candidates count) record) :
    builder.Tabled maxTokens explainability expansionSection count table
      (capture explainability record) := by
  refine ⟨0, ?_, ?_, ?_⟩
  · rw [htable, hrows]
    rfl
  · rw [hrows]
    exact .nil
  · cases explainability with
    | false => rfl
    | true => exact ⟨rfl, hkind, hname, hcount, hrecord rfl⟩

theorem buildRelationshipContextFromSelection_tabled {selection : RelationshipSelection}
    (hselected : selection.selected = (builder.selectionAt selectedEntities count).1.selected)
    (hselection : explainability = true →
      selection = (builder.selectionAt selectedEntities count).1)
    {section? : Option ContextSection}
    (h : builder.buildRelationshipContextFromSelection selection maxTokens explainability =
      .ok section?) :
    builder.TabledSection maxTokens explainability (builder.relationshipSection selectedEntities)
      count relationshipColumns section? := by
  unfold buildRelationshipContextFromSelection at h
  by_cases hempty : selection.selected = []
  · rw [hempty] at hselected
    have hrows : ((builder.relationshipSection selectedEntities).candidates count).rows = [] := by
      show (builder.selectionAt selectedEntities count).1.selected.map _ = []
      rw [← hselected, List.map_nil]
    have hids : ((builder.relationshipSection selectedEntities).candidates count).ids = [] := by
      show (builder.selectionAt selectedEntities count).1.selected.map _ = []
      rw [← hselected, List.map_nil]
    have hcolumns : (⟨relationshipColumns, []⟩ : ContextTable) =
        ⟨((builder.relationshipSection selectedEntities).candidates count).columns, []⟩ := by
      have hnone : includeLinks (builder.selectionAt selectedEntities count).1 = false := by
        rw [includeLinks, ← hselected]
        rfl
      show _ = (⟨if includeLinks (builder.selectionAt selectedEntities count).1 then _ else _, []⟩ :
        ContextTable)
      rw [hnone, if_neg Bool.false_ne_true]
    by_cases hfiltered : selection.rankFiltered = []
    · rw [if_pos ⟨hempty, hfiltered⟩] at h
      obtain rfl := Except.ok.inj h
      refine builder.tabled_empty hcolumns hrows rfl rfl rfl fun htrue =>
        emptySectionExplainability_recorded hids ?_ _ _ _
      show (builder.selectionAt selectedEntities count).1.rankFiltered.map _ = []
      rw [← hselection htrue, hfiltered, List.map_nil]
    · rw [if_neg fun hboth => hfiltered hboth.2, if_pos hempty] at h
      obtain rfl := Except.ok.inj h
      cases explainability with
      | false =>
        exact @tabled_empty builder _ false _ _ _ hcolumns hrows
          (emptySectionExplainability .relationships none maxTokens) rfl rfl rfl
          fun htrue => absurd htrue Bool.false_ne_true
      | true =>
        have hrecorded : Recorded ((builder.relationshipSection selectedEntities).candidates count)
            { kind := .relationships, name := none, tokenBudget := maxTokens, tokensUsed := 0,
              candidateCount := 0, selectedCount := 0, selectedRecordIds := [], truncated := false,
              candidates := selection.rankFiltered.map rankFilteredCandidate } := by
          refine ⟨?_, Nat.zero_le _, ?_, ?_, ?_, [], _, rfl, hids.symm, ?_, ?_, ?_⟩
          · rw [hids]
            rfl
          · rw [hids]
            rfl
          · rw [hids]
            rfl
          · refine List.map_eq_nil_iff.mpr (List.filter_eq_nil_iff.mpr fun candidate hmem => ?_)
            obtain ⟨ranked, -, rfl⟩ := List.mem_map.mp hmem
            exact Bool.false_ne_true
          · show _ = (builder.selectionAt selectedEntities count).1.rankFiltered.map _
            rw [← hselection rfl, List.map_map]
            rfl
          · exact fun _ hmem => absurd hmem List.not_mem_nil
          · intro candidate hmem
            obtain ⟨ranked, -, rfl⟩ := List.mem_map.mp hmem
            exact ⟨rfl, rfl⟩
        exact @tabled_empty builder _ true _ _ _ hcolumns hrows _ rfl rfl rfl fun _ => hrecorded
  · rw [if_neg fun hboth => hempty hboth.1, if_neg hempty] at h
    obtain ⟨fitted, hfitted, h⟩ := bind_eq_ok.mp h
    obtain ⟨text, -, h⟩ := bind_eq_ok.mp h
    obtain rfl := Except.ok.inj h
    have hincludeLinks : selection.selected.head?.any (·.links.isSome) =
        includeLinks (builder.selectionAt selectedEntities count).1 := by
      rw [includeLinks, hselected]
    rw [hincludeLinks, hselected] at hfitted
    obtain ⟨htable, hcandidates, -, hlongest⟩ := builder.fitDelimitedRows_longest hfitted
    rw [List.length_map] at hcandidates
    refine ⟨fitted.selectedCount, htable, hlongest, ?_⟩
    cases explainability with
    | false => rfl
    | true =>
      obtain rfl := hselection rfl
      refine ⟨rfl, rfl, rfl, rfl, buildRecordSectionExplainability_recorded rfl ?_ ?_ ?_ ?_ ?_⟩
      · rw [List.map_map]
        rfl
      · show _ = (builder.selectionAt selectedEntities count).1.rankFiltered.map _
        rw [List.map_map]
        rfl
      · intro candidate hmem
        obtain ⟨ranked, -, rfl⟩ := List.mem_map.mp hmem
        exact ⟨rfl, rfl⟩
      · rw [hcandidates]
        exact (List.length_map _).symm
      · have hle := hlongest.le
        rw [List.length_map] at hle
        exact le_of_le_of_eq hle (List.length_map _).symm

theorem buildCovariateContextFromPositionsCapture_tabled {group : String × ExtTreeSet ℕ}
    {section? : Option ContextSection}
    (h : builder.buildCovariateContextFromPositionsCapture group.1 group.2
      (builder.covariatePositionsOf (selectedEntities.take count)) maxTokens explainability =
        .ok section?) :
    builder.TabledSection maxTokens explainability
      (builder.covariateSection selectedEntities group) count covariateColumns section? := by
  unfold buildCovariateContextFromPositionsCapture at h
  dsimp only at h
  by_cases hempty : group.2.isEmpty = true
  · rw [if_pos hempty] at h
    obtain rfl := Except.ok.inj h
    have hcovariates : builder.covariatesAt selectedEntities group.2 count = [] := by
      unfold covariatesAt
      rw [List.filter_eq_nil_iff.mpr, List.filterMap_nil]
      intro position _
      rw [decide_eq_true_eq, ExtTreeSet.isEmpty_iff.mp hempty]
      exact ExtTreeSet.not_mem_empty
    refine builder.tabled_empty rfl ?_ rfl rfl rfl fun _ =>
      @emptySectionExplainability_recorded
        ((builder.covariateSection selectedEntities group).candidates count) ?_ rfl _ _ _
    · show (builder.covariatesAt selectedEntities group.2 count).map _ = []
      rw [hcovariates, List.map_nil]
    · show (builder.covariatesAt selectedEntities group.2 count).map _ = []
      rw [hcovariates, List.map_nil]
  · rw [if_neg hempty] at h
    obtain ⟨fitted, hfitted, h⟩ := bind_eq_ok.mp h
    obtain ⟨text, -, h⟩ := bind_eq_ok.mp h
    obtain rfl := Except.ok.inj h
    obtain ⟨htable, hcandidates, -, hlongest⟩ := builder.fitDelimitedRows_longest hfitted
    refine ⟨fitted.selectedCount, htable, hlongest, ?_⟩
    rw [List.length_map] at hcandidates
    cases explainability with
    | false => rfl
    | true =>
      refine ⟨rfl, rfl, rfl, rfl, buildRecordSectionExplainability_recorded rfl rfl rfl ?_ ?_ ?_⟩
      · exact fun _ hmem => absurd hmem List.not_mem_nil
      · rw [hcandidates]
        exact (List.length_map _).symm
      · have hle := hlongest.le
        rw [List.length_map] at hle
        exact le_of_le_of_eq hle (List.length_map _).symm

theorem Tabled.tokens {expansionSection : ExpansionSection} {table : ContextTable}
    {record? : Option SectionExplainability}
    (h : builder.Tabled maxTokens explainability expansionSection count table record?)
    (tokensUsed : ℕ) :
    builder.Tabled maxTokens explainability expansionSection count table
      (record?.map fun record => { record with tokensUsed := tokensUsed }) := by
  obtain ⟨selectedCount, htable, hlongest, hrecord⟩ := h
  refine ⟨selectedCount, htable, hlongest, ?_⟩
  cases record? with
  | none => exact hrecord
  | some record =>
    obtain ⟨hexplainability, hkind, hname, hcount, hrecorded⟩ := hrecord
    exact ⟨hexplainability, hkind, hname, hcount, hrecorded.tokens tokensUsed⟩

end LocalContextBuilder

end GraphLoom.Query.Local
