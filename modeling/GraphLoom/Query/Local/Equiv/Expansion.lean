import GraphLoom.Query.Local.Equiv.Neighbourhood
import GraphLoom.Query.Local.Equiv.Rollback

/-!
# The expansion keeps the last state that fits

The expansion is the attempt for the longest prefix of the entities whose attempts fit
(`expandLocalGraph_eq_ok`).  Its tables have the rows that fit, and its records say what is in them
(`buildLocalContextCapture_kept`), also when an attempt has been given up (`expanded_reported`).
-/

namespace GraphLoom.Query.Local

open Foundation Std LocalContextBuilder

namespace LocalContextBuilder

variable (builder : LocalContextBuilder) {selectedEntities : List Entity}
  {maxTokens entityTokens : ℕ} {explainability : Bool}

/-! ### Attempts -/

omit builder in
/-- The links that are learned do not depend on a session. -/
theorem filterRelationshipsCapture_links (entities : List Entity)
    (relationships : List Relationship) (positions : ExtTreeSet ℕ) (topK : ℕ)
    (learnedLinks : ExtTreeMap String ℕ) (explainability : Bool) :
    (filterRelationshipsCapture entities relationships positions topK learnedLinks
        explainability).2 =
      (filterRelationshipsCapture entities relationships positions topK learnedLinks true).2 := by
  cases explainability with
  | true => rfl
  | false =>
    exact (filterRelationshipsCapture_selected entities relationships positions topK
      learnedLinks).2.2.symm

variable {positions : ExtTreeSet ℕ} {entities : List Entity}

theorem buildRelationshipContextFromPositionsCapture_eq_ok
    {learnedLinks links : ExtTreeMap String ℕ}
    {section? : Option ContextSection}
    (h : builder.buildRelationshipContextFromPositionsCapture entities positions maxTokens
      learnedLinks explainability = .ok (section?, links)) :
    builder.buildRelationshipContextFromSelection
        (filterRelationshipsCapture entities builder.relationships positions
          builder.config.topKRelationships learnedLinks explainability).1 maxTokens
        explainability = .ok section? ∧
      links = (filterRelationshipsCapture entities builder.relationships positions
        builder.config.topKRelationships learnedLinks explainability).2 := by
  unfold buildRelationshipContextFromPositionsCapture at h
  generalize filterRelationshipsCapture entities builder.relationships positions
    builder.config.topKRelationships learnedLinks explainability = result at h ⊢
  obtain ⟨section', hsection, h⟩ := bind_eq_ok.mp h
  obtain ⟨rfl, rfl⟩ := Prod.mk.inj (Except.ok.inj h)
  exact ⟨hsection, rfl⟩

theorem buildLocalExpansionAttempt_links
    {covariatePositions : List ℕ} {learnedLinks : ExtTreeMap String ℕ}
    {result : LocalExpansionAttempt × ExtTreeMap String ℕ}
    (h : builder.buildLocalExpansionAttempt entities positions covariatePositions maxTokens
      entityTokens learnedLinks explainability = .ok result) :
    result.2 = (filterRelationshipsCapture entities builder.relationships positions
      builder.config.topKRelationships learnedLinks true).2 := by
  obtain ⟨⟨relationship, links⟩, hrelationship, h⟩ := bind_eq_ok.mp h
  obtain ⟨_, -, h⟩ := bind_eq_ok.mp h
  obtain ⟨_, -, h⟩ := bind_eq_ok.mp h
  obtain rfl := Except.ok.inj h
  rw [← filterRelationshipsCapture_links _ _ _ _ _ explainability]
  exact (builder.buildRelationshipContextFromPositionsCapture_eq_ok hrelationship).2

theorem buildLocalExpansionAttempt_of_selection {covariatePositions : List ℕ}
    {learnedLinks links : ExtTreeMap String ℕ}
    {selection : RelationshipSelection}
    (h : filterRelationshipsCapture entities builder.relationships positions
      builder.config.topKRelationships learnedLinks explainability = (selection, links)) :
    builder.buildLocalExpansionAttempt entities positions covariatePositions maxTokens entityTokens
        learnedLinks explainability =
      (builder.attemptWith selection covariatePositions maxTokens entityTokens
        explainability).map fun attempt => (attempt, links) := by
  rw [buildLocalExpansionAttempt, buildRelationshipContextFromPositionsCapture, h, attemptWith]
  show (do
    let found ← (do
      let relationship ← builder.buildRelationshipContextFromSelection selection maxTokens
        explainability
      return (relationship, links))
    let attempt ← builder.addRelationships found.1 maxTokens entityTokens explainability
    let attempt ← builder.index.covariateGroups.foldlM
      (builder.addCovariates covariatePositions maxTokens explainability) attempt
    return (attempt, found.2)) = _
  cases builder.buildRelationshipContextFromSelection selection maxTokens explainability with
  | error error => rfl
  | ok relationship =>
    show (do
      let attempt ← builder.addRelationships relationship maxTokens entityTokens explainability
      let attempt ← builder.index.covariateGroups.foldlM
        (builder.addCovariates covariatePositions maxTokens explainability) attempt
      return (attempt, links)) = Except.map _ (do
        let attempt ← builder.addRelationships relationship maxTokens entityTokens explainability
        builder.index.covariateGroups.foldlM
          (builder.addCovariates covariatePositions maxTokens explainability) attempt)
    cases builder.addRelationships relationship maxTokens entityTokens explainability with
    | error error => rfl
    | ok attempt => rfl

theorem covariatePositionsOf_append (entities : List Entity) (entity : Entity) :
    builder.covariatePositionsOf (entities ++ [entity]) = builder.covariatePositionsOf entities ++
      (builder.index.covariatesBySubject[entity.title]?).getD [] := by
  unfold covariatePositionsOf
  rw [List.flatMap_append, List.flatMap_singleton]

/-- What comes of an attempt and of the one that does not fit after it. -/
def Expanded (accepted : LocalExpansionAttempt) (rejected : Option LocalExpansionAttempt)
    (explainability : Bool) : LocalExpansionAttempt :=
  match rejected with
  | some rejected => if explainability then
      { accepted with
        explainability :=
          rollbackSectionExplainability rejected.explainability accepted.explainability }
    else accepted
  | none => accepted

/-- The expansion goes on while the attempts fit. -/
theorem expandFrom_eq_ok (rest : List Entity) :
    ∀ {done : List Entity} {accepted expansion : LocalExpansionAttempt},
      done ++ rest = selectedEntities →
      builder.attemptAt selectedEntities maxTokens entityTokens explainability done.length =
        .ok accepted →
      builder.expandFrom maxTokens entityTokens explainability done accepted
        (builder.selectionAt selectedEntities done.length).2 (builder.positionsOf done)
        (builder.covariatePositionsOf done) rest = .ok expansion →
      ∃ count attempt rejected,
        LongestPrefix (fun i => builder.AttemptFits selectedEntities maxTokens entityTokens
          explainability (done.length + i)) rest.length count ∧
        builder.attemptAt selectedEntities maxTokens entityTokens explainability
          (done.length + count) = .ok attempt ∧
        (rejected = none ∧ count = rest.length ∨
          ∃ attempt', rejected = some attempt' ∧ count < rest.length ∧
            builder.attemptAt selectedEntities maxTokens entityTokens explainability
              (done.length + count + 1) = .ok attempt') ∧
        expansion = Expanded attempt rejected explainability := by
  induction rest with
  | nil =>
    intro done accepted expansion _ haccepted h
    obtain rfl := Except.ok.inj h
    exact ⟨0, accepted, none, .nil, haccepted, Or.inl ⟨rfl, rfl⟩, rfl⟩
  | cons entity rest ih =>
    intro done accepted expansion hdone haccepted h
    obtain ⟨⟨attempt, links⟩, hattempt, h⟩ := bind_eq_ok.mp h
    have hlength : (done ++ [entity]).length = done.length + 1 := by
      rw [List.length_append, List.length_singleton]
    have htake : selectedEntities.take (done.length + 1) = done ++ [entity] := by
      rw [← hdone, List.append_cons]
      exact List.take_left' hlength
    rw [← positionsOf_append, ← builder.covariatePositionsOf_append]
      at hattempt
    have hnext : builder.attemptAt selectedEntities maxTokens entityTokens explainability
        (done.length + 1) = .ok attempt := by
      rw [attemptAt, htake, hattempt]
      rfl
    have hlinks : links = (builder.selectionAt selectedEntities (done ++ [entity]).length).2 := by
      rw [hlength, selectionAt, htake]
      exact builder.buildLocalExpansionAttempt_links hattempt
    dsimp only at h
    by_cases hover : maxTokens < attempt.tokensUsed
    · -- the attempt is given up
      rw [if_pos hover] at h
      refine ⟨0, accepted, some attempt, .stop ?_, haccepted,
        Or.inr ⟨attempt, rfl, Nat.zero_lt_succ _, hnext⟩, (Except.ok.inj h).symm⟩
      rintro ⟨other, hother, hle⟩
      obtain rfl := Except.ok.inj (hnext.symm.trans hother)
      exact Nat.not_le_of_lt hover hle
    · rw [if_neg hover, hlinks, ← positionsOf_append,
        ← builder.covariatePositionsOf_append] at h
      obtain ⟨count, attempt', rejected, hlongest, hattempt', hrejected, hexpansion⟩ :=
        ih ((List.append_cons done entity rest).symm.trans hdone) (hlength ▸ hnext) h
      refine ⟨count + 1, attempt', rejected, ?_, ?_, ?_, hexpansion⟩
      · refine .step ⟨attempt, hnext, Nat.le_of_not_lt hover⟩ (hlongest.congr fun i => ?_)
        rw [hlength, Nat.add_assoc, Nat.add_comm 1 i]
      · rw [hlength, Nat.add_assoc, Nat.add_comm 1 count] at hattempt'
        exact hattempt'
      · rcases hrejected with ⟨hnone, hall⟩ | ⟨other, hsome, hlt, hother⟩
        · exact Or.inl ⟨hnone, congrArg (· + 1) hall⟩
        · refine Or.inr ⟨other, hsome, Nat.succ_lt_succ hlt, ?_⟩
          rw [hlength, Nat.add_assoc done.length, Nat.add_comm 1 count] at hother
          exact hother

/-- The expansion is the attempt for the longest prefix of the entities whose attempts fit. -/
theorem expandLocalGraph_eq_ok {expansion : LocalExpansionAttempt}
    (h : builder.expandLocalGraph selectedEntities maxTokens entityTokens explainability =
      .ok expansion) :
    ∃ count attempt rejected,
      LongestPrefix (builder.AttemptFits selectedEntities maxTokens entityTokens explainability)
        selectedEntities.length count ∧
      builder.attemptAt selectedEntities maxTokens entityTokens explainability count =
        .ok attempt ∧
      (rejected = none ∧ count = selectedEntities.length ∨
        ∃ attempt', rejected = some attempt' ∧ count < selectedEntities.length ∧
          builder.attemptAt selectedEntities maxTokens entityTokens explainability (count + 1) =
            .ok attempt') ∧
      expansion = Expanded attempt rejected explainability := by
  have hexpand := builder.expandFrom_eq_ok selectedEntities (List.nil_append _) rfl h
  simp only [List.length_nil, Nat.zero_add] at hexpand
  exact hexpand

/-! ### An attempt -/

/-- What is known of an attempt once some sections are in it. -/
structure AttemptOf (maxTokens entityTokens : ℕ) (explainability : Bool)
    (sections : List ExpansionSection) (count : ℕ) (attempt : LocalExpansionAttempt) : Prop where
  tokensUsed : attempt.tokensUsed = min usizeMax
    (entityTokens + (attempt.text.map fun text => builder.recounted text 0).sum)
  tables : ∀ expansionSection ∈ sections, ∃ table record?,
    attempt.tables[expansionSection.key]? = some table ∧
      builder.Tabled maxTokens explainability expansionSection count table record?
  records : if explainability then
      List.Forall₂ (fun expansionSection record => ∃ table,
        builder.Tabled maxTokens true expansionSection count table (some record))
          sections attempt.explainability
    else attempt.explainability = []

/-- One more section in an attempt. -/
theorem AttemptOf.add {sections : List ExpansionSection} {count : ℕ}
    {attempt : LocalExpansionAttempt}
    (h : builder.AttemptOf maxTokens entityTokens explainability sections count attempt)
    {expansionSection : ExpansionSection} (hkey : expansionSection.key ∉ sections.map (·.key))
    {table : ContextTable} {record? : Option SectionExplainability}
    (htabled : builder.Tabled maxTokens explainability expansionSection count table record?)
    {text : List String} {tokensUsed : ℕ}
    (htokens : tokensUsed = usizeAdd attempt.tokensUsed
      ((text.map fun text => builder.recounted text 0).sum)) :
    builder.AttemptOf maxTokens entityTokens explainability (sections ++ [expansionSection]) count
      { text := attempt.text ++ text
        tables := attempt.tables.insert expansionSection.key table
        tokensUsed := tokensUsed
        explainability := attempt.explainability ++ record?.toList } := by
  constructor
  · dsimp only
    rw [htokens, h.tokensUsed, List.map_append, List.sum_append, usizeAdd]
    omega
  · intro other hother
    rw [List.mem_append, List.mem_singleton] at hother
    dsimp only
    rw [ExtTreeMap.getElem?_insert]
    rcases hother with hother | rfl
    · obtain ⟨otherTable, otherRecord, hget, hotherTabled⟩ := h.tables other hother
      have hne : ¬ compare expansionSection.key other.key = .eq := by
        intro heq
        rw [LawfulEqCmp.compare_eq_iff_eq.mp heq] at hkey
        exact hkey (List.mem_map_of_mem hother)
      rw [if_neg hne]
      exact ⟨otherTable, otherRecord, hget, hotherTabled⟩
    · rw [if_pos ReflCmp.compare_self]
      exact ⟨table, record?, rfl, htabled⟩
  · have hrecords := h.records
    cases explainability with
    | false =>
      rw [if_neg Bool.false_ne_true] at hrecords ⊢
      obtain ⟨_, -, -, hrecord⟩ := htabled
      cases record? with
      | none => exact (List.append_nil _).trans hrecords
      | some record => exact absurd hrecord.1 Bool.false_ne_true
    | true =>
      rw [if_pos rfl] at hrecords ⊢
      cases hrecord : record? with
      | none =>
        rw [hrecord] at htabled
        obtain ⟨_, -, -, hfalse⟩ := htabled
        exact absurd hfalse.symm Bool.false_ne_true
      | some record =>
        rw [hrecord] at htabled
        exact List.rel_append hrecords (.cons ⟨table, htabled⟩ .nil)

theorem attemptOf_nil (count : ℕ) (hle : entityTokens ≤ usizeMax) :
    builder.AttemptOf maxTokens entityTokens explainability [] count
      ⟨[], ∅, entityTokens, []⟩ := by
  refine ⟨(Nat.min_eq_right hle).symm, fun _ hmem => absurd hmem List.not_mem_nil, ?_⟩
  cases explainability with
  | false => rfl
  | true => exact .nil

theorem addRelationships_attemptOf {count : ℕ} (hle : entityTokens ≤ usizeMax)
    {section? : Option ContextSection}
    (htabled : builder.TabledSection maxTokens explainability
      (builder.relationshipSection selectedEntities) count relationshipColumns section?)
    {attempt : LocalExpansionAttempt}
    (h : builder.addRelationships section? maxTokens entityTokens explainability = .ok attempt) :
    builder.AttemptOf maxTokens entityTokens explainability
      [builder.relationshipSection selectedEntities] count attempt := by
  have hstart := @attemptOf_nil builder maxTokens entityTokens explainability count hle
  unfold addRelationships at h
  cases section? with
  | none =>
    obtain rfl := Except.ok.inj h
    exact @AttemptOf.add builder _ _ _ _ _ _ hstart _ List.not_mem_nil _ _ htabled [] _
      (Nat.min_eq_right hle).symm
  | some contextSection =>
    dsimp only at h
    by_cases hempty : contextSection.text = ""
    · rw [if_pos hempty, if_pos hempty] at h
      obtain rfl := Except.ok.inj h
      exact @AttemptOf.add builder _ _ _ _ _ _ hstart _ List.not_mem_nil _ _
        (Tabled.tokens builder htabled 0) [] _ rfl
    · rw [if_neg hempty, if_neg hempty] at h
      obtain ⟨tokens, htokens, h⟩ := bind_eq_ok.mp h
      obtain rfl := Except.ok.inj h
      refine @AttemptOf.add builder _ _ _ _ _ _ hstart _ List.not_mem_nil _ _
        (Tabled.tokens builder htabled tokens) [contextSection.text] _ ?_
      rw [List.map_singleton, List.sum_singleton, builder.recounted_of_count htokens]

theorem addCovariates_attemptOf {sections : List ExpansionSection} {count : ℕ}
    {attempt attempt' : LocalExpansionAttempt}
    (hattempt : builder.AttemptOf maxTokens entityTokens explainability sections count attempt)
    {group : String × ExtTreeSet ℕ}
    (hkey : builder.ops.toLowercase group.1 ∉ sections.map (·.key))
    (h : builder.addCovariates (builder.covariatePositionsOf (selectedEntities.take count)) maxTokens
      explainability attempt group = .ok attempt') :
    builder.AttemptOf maxTokens entityTokens explainability
      (sections ++ [builder.covariateSection selectedEntities group]) count attempt' := by
  unfold addCovariates at h
  obtain ⟨section?, hsection, h⟩ := bind_eq_ok.mp h
  have htabled := builder.buildCovariateContextFromPositionsCapture_tabled hsection
  cases section? with
  | none =>
    obtain rfl := Except.ok.inj h
    have hadd := @AttemptOf.add builder _ _ _ _ _ _ hattempt _ hkey _ _ htabled [] attempt.tokensUsed
      (by rw [hattempt.tokensUsed, usizeAdd]; simp)
    rwa [List.append_nil] at hadd
  | some contextSection =>
    obtain ⟨tokens, htokens, h⟩ := bind_eq_ok.mp h
    obtain rfl := Except.ok.inj h
    refine @AttemptOf.add builder _ _ _ _ _ _ hattempt _ hkey _ _
      (Tabled.tokens builder htabled tokens) [contextSection.text] _ ?_
    rw [List.map_singleton, List.sum_singleton, builder.recounted_of_count htokens]

theorem addCovariates_foldlM {count : ℕ} (groups : List (String × ExtTreeSet ℕ)) :
    ∀ {sections : List ExpansionSection} {attempt attempt' : LocalExpansionAttempt},
      builder.AttemptOf maxTokens entityTokens explainability sections count attempt →
      (sections.map (·.key) ++ groups.map fun group => builder.ops.toLowercase group.1).Nodup →
      groups.foldlM (builder.addCovariates
        (builder.covariatePositionsOf (selectedEntities.take count)) maxTokens explainability)
          attempt = .ok attempt' →
      builder.AttemptOf maxTokens entityTokens explainability
        (sections ++ groups.map (builder.covariateSection selectedEntities)) count attempt' := by
  induction groups with
  | nil =>
    intro sections attempt attempt' hattempt _ h
    obtain rfl := Except.ok.inj h
    rwa [List.map_nil, List.append_nil]
  | cons group groups ih =>
    intro sections attempt attempt' hattempt hkeys h
    rw [List.foldlM_cons] at h
    obtain ⟨next, hnext, h⟩ := bind_eq_ok.mp h
    rw [List.map_cons] at hkeys
    have hkey : builder.ops.toLowercase group.1 ∉ sections.map (·.key) := by
      intro hmem
      exact (List.nodup_append.mp hkeys).2.2 _ hmem _ (List.mem_cons_self ..) rfl
    have hrest := ih (builder.addCovariates_attemptOf hattempt hkey hnext) (by
      rw [List.map_append, List.append_assoc]
      exact hkeys) h
    rwa [List.append_assoc] at hrest

/-- An attempt has the sections of its entities. -/
theorem attemptAt_attemptOf (hkeys : builder.DistinctTables) (hle : entityTokens ≤ usizeMax)
    {count : ℕ} {attempt : LocalExpansionAttempt}
    (h : builder.attemptAt selectedEntities maxTokens entityTokens explainability (count + 1) =
      .ok attempt) :
    builder.AttemptOf maxTokens entityTokens explainability
      (builder.expansionSections selectedEntities) (count + 1) attempt := by
  obtain ⟨⟨attempt', links⟩, hbuild, rfl⟩ := map_eq_ok.mp h
  obtain ⟨⟨section?, links'⟩, hsection, h⟩ := bind_eq_ok.mp hbuild
  obtain ⟨start, hstart, h⟩ := bind_eq_ok.mp h
  obtain ⟨final, hfinal, h⟩ := bind_eq_ok.mp h
  obtain ⟨rfl, -⟩ := Prod.mk.inj (Except.ok.inj h)
  have hselected : (filterRelationshipsCapture (selectedEntities.take (count + 1))
      builder.relationships (builder.positionsOf (selectedEntities.take (count + 1)))
      builder.config.topKRelationships (builder.selectionAt selectedEntities count).2
      explainability).1.selected =
        (builder.selectionAt selectedEntities (count + 1)).1.selected := by
    cases explainability with
    | true => rfl
    | false => exact (filterRelationshipsCapture_selected _ _ _ _ _).1.symm
  have htabled := builder.buildRelationshipContextFromSelection_tabled hselected
    (fun htrue => by rw [htrue]; rfl)
    (builder.buildRelationshipContextFromPositionsCapture_eq_ok hsection).1
  have hrelationships := builder.addRelationships_attemptOf hle htabled hstart
  have hrest := (List.nodup_cons.mp hkeys).2
  exact builder.addCovariates_foldlM builder.index.covariateGroups hrelationships hrest hfinal

/-! ### The expansion -/

theorem candidates_zero {expansionSection : ExpansionSection}
    (h : expansionSection ∈ builder.expansionSections selectedEntities) :
    (expansionSection.candidates 0).rows = [] ∧ (expansionSection.candidates 0).ids = [] ∧
      (expansionSection.candidates 0).filtered = [] := by
  rcases List.mem_cons.mp h with rfl | hcovariates
  · exact ⟨rfl, rfl, rfl⟩
  · obtain ⟨group, -, rfl⟩ := List.mem_map.mp hcovariates
    exact ⟨rfl, rfl, rfl⟩

/-- The sections are told apart by what their records are told apart by. -/
theorem expansionSections_eq (hkeys : builder.DistinctTables) {a b : ExpansionSection}
    (ha : a ∈ builder.expansionSections selectedEntities)
    (hb : b ∈ builder.expansionSections selectedEntities) (hkind : a.kind = b.kind)
    (hname : a.name = b.name) : a = b := by
  rcases List.mem_cons.mp ha with rfl | ha'
  · rcases List.mem_cons.mp hb with rfl | hb'
    · rfl
    · obtain ⟨group, -, rfl⟩ := List.mem_map.mp hb'
      exact absurd hname.symm (Option.some_ne_none _)
  · obtain ⟨group, hgroup, rfl⟩ := List.mem_map.mp ha'
    rcases List.mem_cons.mp hb with rfl | hb'
    · exact absurd hname (Option.some_ne_none _)
    · obtain ⟨group', hgroup', rfl⟩ := List.mem_map.mp hb'
      have hnames := (List.nodup_cons.mp (List.nodup_cons.mp hkeys).2).2
      have hgroups : group = group' := by
        refine List.inj_on_of_nodup_map hnames hgroup hgroup' ?_
        exact congrArg builder.ops.toLowercase (Option.some.inj hname)
      rw [hgroups]

/-- An attempt with its tokens, tables and records. -/
theorem attemptAt_known (hkeys : builder.DistinctTables) (hle : entityTokens ≤ usizeMax) {count : ℕ}
    {attempt : LocalExpansionAttempt}
    (h : builder.attemptAt selectedEntities maxTokens entityTokens explainability count =
      .ok attempt) :
    attempt.tokensUsed = min usizeMax
        (entityTokens + (attempt.text.map fun text => builder.recounted text 0).sum) ∧
      (∀ expansionSection ∈ builder.expansionSections selectedEntities,
        builder.Kept selectedEntities maxTokens count attempt.tables [] expansionSection) ∧
      (explainability = false → attempt.explainability = []) ∧
      (∀ record ∈ attempt.explainability,
        ∃ expansionSection ∈ builder.expansionSections selectedEntities, ∃ table,
          builder.Tabled maxTokens true expansionSection count table (some record)) ∧
      (explainability = true → 0 < count →
        ∀ expansionSection ∈ builder.expansionSections selectedEntities,
          ∃ record ∈ attempt.explainability, ∃ table,
            builder.Tabled maxTokens true expansionSection count table (some record)) := by
  cases count with
  | zero =>
    obtain rfl := Except.ok.inj h
    refine ⟨(Nat.min_eq_right hle).symm, fun expansionSection hsection => ?_, fun _ => rfl,
      fun _ hmem => absurd hmem List.not_mem_nil, fun _ hpos => absurd hpos (Nat.lt_irrefl 0)⟩
    refine ⟨0, ?_, ?_, fun _ hmem => absurd hmem List.not_mem_nil⟩
    · rw [(builder.candidates_zero hsection).1]
      exact .nil
    · rw [List.take_zero, ExtTreeMap.getElem?_empty]
      rfl
  | succ count =>
    have hattempt := builder.attemptAt_attemptOf hkeys hle h
    refine ⟨hattempt.tokensUsed, fun expansionSection hsection => ?_, ?_, ?_, ?_⟩
    · obtain ⟨table, record?, hget, selectedCount, rfl, hlongest, -⟩ :=
        hattempt.tables expansionSection hsection
      refine ⟨selectedCount, hlongest, ?_, fun _ hmem => absurd hmem List.not_mem_nil⟩
      rw [hget]
      rfl
    · intro hfalse
      have hrecords := hattempt.records
      rwa [hfalse, if_neg Bool.false_ne_true] at hrecords
    · intro record hrecord
      have hrecords := hattempt.records
      cases explainability with
      | false =>
        rw [if_neg Bool.false_ne_true] at hrecords
        rw [hrecords] at hrecord
        exact absurd hrecord List.not_mem_nil
      | true =>
        rw [if_pos rfl] at hrecords
        exact forall₂_exists_left hrecords hrecord
    · rintro rfl - expansionSection hsection
      have hrecords := hattempt.records
      rw [if_pos rfl] at hrecords
      exact forall₂_exists_right hrecords hsection

theorem added_self (candidates : SectionCandidates) : candidates.added candidates = [] := by
  have hempty : ∀ ids filtered : List String, ids.diff (ids ++ filtered) = [] := by
    intro ids filtered
    induction ids with
    | nil => exact List.nil_diff _
    | cons id ids ih => rw [List.cons_append, List.cons_diff_of_mem (List.mem_cons_self ..),
        List.erase_cons_head, ih]
  exact hempty candidates.ids candidates.filtered

/-- What was accepted of a section when a record of the attempt is merged. -/
theorem exists_accepted (hkeys : builder.DistinctTables) (hle : entityTokens ≤ usizeMax) {count : ℕ}
    {attempt : LocalExpansionAttempt}
    (h : builder.attemptAt selectedEntities maxTokens entityTokens true count = .ok attempt)
    {expansionSection : ExpansionSection}
    (hsection : expansionSection ∈ builder.expansionSections selectedEntities)
    {attempted : SectionExplainability} (hkind : attempted.kind = expansionSection.kind)
    (hname : attempted.name = expansionSection.name) :
    ∃ start, ((attempt.explainability.find? fun accepted => sameSection accepted attempted).getD
        (emptySectionExplainability attempted.kind attempted.name attempted.tokenBudget)) = start ∧
      Recorded (expansionSection.candidates count) start ∧
      LongestPrefix (builder.RowsFit maxTokens expansionSection.title
        (expansionSection.candidates count).columns (expansionSection.candidates count).rows)
        (expansionSection.candidates count).rows.length start.selectedCount := by
  obtain ⟨-, -, -, hrecords, hsections⟩ := builder.attemptAt_known hkeys hle h
  cases hfound : attempt.explainability.find? fun accepted => sameSection accepted attempted with
  | some start =>
    obtain ⟨other, hother, table, selectedCount, -, hlongest, -, hstartKind, hstartName, hcount,
      hrecorded⟩ := hrecords start (List.mem_of_find?_eq_some hfound)
    have hfirst := List.find?_some hfound
    obtain ⟨hsameKind, hsameName⟩ := sameSection_iff.mp hfirst
    obtain rfl := builder.expansionSections_eq hkeys hother hsection
      (hstartKind.symm.trans (hsameKind.trans hkind))
      (hstartName.symm.trans (hsameName.trans hname))
    exact ⟨start, rfl, hrecorded, hcount ▸ hlongest⟩
  | none =>
    rcases Nat.eq_zero_or_pos count with rfl | hpos
    · obtain ⟨hrows, hids, hfiltered⟩ := builder.candidates_zero hsection
      refine ⟨_, rfl, emptySectionExplainability_recorded hids hfiltered _ _ _, ?_⟩
      rw [hrows]
      exact .nil
    · -- an attempt with entities has a record of each section
      obtain ⟨record, hrecord, table, _, -, -, -, hrecordKind, hrecordName, -, -⟩ :=
        hsections rfl hpos expansionSection hsection
      have hnot := List.find?_eq_none.mp hfound record hrecord
      exact absurd (sameSection_iff.mpr
        ⟨hrecordKind.trans hkind.symm, hrecordName.trans hname.symm⟩) hnot

/-- **The records of the expansion are those of its sections**, also when an attempt has been given
up. -/
theorem expanded_reported (hkeys : builder.DistinctTables) (hle : entityTokens ≤ usizeMax)
    {count : ℕ} {attempt : LocalExpansionAttempt} {rejected : Option LocalExpansionAttempt}
    (h : builder.attemptAt selectedEntities maxTokens entityTokens explainability count =
      .ok attempt)
    (hrejected : rejected = none ∧ count = selectedEntities.length ∨
      ∃ attempt', rejected = some attempt' ∧ count < selectedEntities.length ∧
        builder.attemptAt selectedEntities maxTokens entityTokens explainability (count + 1) =
          .ok attempt')
    {record : SectionExplainability}
    (hrecord : record ∈ (Expanded attempt rejected explainability).explainability) :
    ∃ expansionSection ∈ builder.expansionSections selectedEntities,
      record.kind = expansionSection.kind ∧ record.name = expansionSection.name ∧
      LongestPrefix (builder.RowsFit maxTokens expansionSection.title
        (expansionSection.candidates count).columns (expansionSection.candidates count).rows)
        (expansionSection.candidates count).rows.length record.selectedCount ∧
      Reported (expansionSection.candidates count)
        (expansionSection.candidates (min (count + 1) selectedEntities.length)) record := by
  obtain ⟨-, -, hnone, hrecords, -⟩ := builder.attemptAt_known hkeys hle h
  cases explainability with
  | false =>
    have hempty : (Expanded attempt rejected false).explainability = [] := by
      rcases hrejected with ⟨rfl, -⟩ | ⟨attempt', rfl, -, -⟩
      · exact hnone rfl
      · exact hnone rfl
    rw [hempty] at hrecord
    exact absurd hrecord List.not_mem_nil
  | true =>
    rcases hrejected with ⟨rfl, rfl⟩ | ⟨attempt', rfl, hlt, hattempt'⟩
    · obtain ⟨expansionSection, hsection, table, selectedCount, -, hlongest, -, hkind, hname, hcount,
        hrecorded⟩ := hrecords record hrecord
      refine ⟨expansionSection, hsection, hkind, hname, hcount ▸ hlongest, ?_⟩
      rw [Nat.min_eq_right (Nat.le_succ _)]
      refine ⟨hrecorded.selectedRecordIds, ?_, ?_, ?_⟩
      · rw [hrecorded.selectedRecordIds, List.length_take, Nat.min_eq_left hrecorded.selectedCount]
      · rw [added_self, hrecorded.candidateCount]
        rfl
      · rw [added_self, hrecorded.truncated]
        simp
    · obtain ⟨-, -, -, hrecords', hsections'⟩ := builder.attemptAt_known hkeys hle hattempt'
      have hcover : ∀ accepted ∈ attempt.explainability, ∃ attempted ∈ attempt'.explainability,
          sameSection accepted attempted = true := by
        intro accepted haccepted
        obtain ⟨expansionSection, hsection, _, _, -, -, -, hkind, hname, -, -⟩ :=
          hrecords accepted haccepted
        obtain ⟨attempted, hattempted, _, _, -, -, -, hkind', hname', -, -⟩ :=
          hsections' rfl (Nat.zero_lt_succ count) expansionSection hsection
        exact ⟨attempted, hattempted, sameSection_iff.mpr
          ⟨hkind.trans hkind'.symm, hname.trans hname'.symm⟩⟩
      obtain ⟨attempted, hattempted, rfl⟩ := mem_rollbackSectionExplainability hcover hrecord
      obtain ⟨expansionSection, hsection, table, _, -, -, -, hkind, hname, -, hrecorded⟩ :=
        hrecords' attempted hattempted
      obtain ⟨start, hstart, haccepted, hlongest⟩ :=
        builder.exists_accepted hkeys hle h hsection hkind hname
      obtain ⟨hcount, hreported⟩ := rollbackOneSection_reported hstart haccepted hrecorded
      obtain ⟨hsameKind, hsameName⟩ := rollbackOneSection_same attempted attempt.explainability
      refine ⟨expansionSection, hsection, hsameKind.trans hkind, hsameName.trans hname, ?_, ?_⟩
      · rw [hcount]
        exact hlongest
      · rw [Nat.min_eq_left (Nat.succ_le_of_lt hlt)]
        exact hreported

/-! ### The context of the graph -/

theorem expanded_parts (attempt : LocalExpansionAttempt) (rejected : Option LocalExpansionAttempt)
    (explainability : Bool) :
    (Expanded attempt rejected explainability).text = attempt.text ∧
      (Expanded attempt rejected explainability).tables = attempt.tables ∧
      (Expanded attempt rejected explainability).tokensUsed = attempt.tokensUsed := by
  cases rejected with
  | none => exact ⟨rfl, rfl, rfl⟩
  | some rejected =>
    cases explainability with
    | false => exact ⟨rfl, rfl, rfl⟩
    | true => exact ⟨rfl, rfl, rfl⟩

theorem buildEntitySection_reported {entity : EntitySection}
    (h : builder.buildEntitySection selectedEntities maxTokens explainability = .ok entity) :
    builder.ops.tokenizer.count entity.text = .ok entity.tokensUsed ∧
      ∃ selectedCount,
        LongestPrefix (builder.RowsFit maxTokens "Entities"
          (entityCandidates selectedEntities).columns (entityCandidates selectedEntities).rows)
          (entityCandidates selectedEntities).rows.length selectedCount ∧
        entity.table.rows = (entityCandidates selectedEntities).rows.take selectedCount ∧
        ∀ record ∈ entity.explainability, record.kind = .entities ∧ record.name = none ∧
          record.selectedCount = selectedCount ∧
          Reported (entityCandidates selectedEntities) (entityCandidates selectedEntities)
            record := by
  obtain ⟨fitted, hfitted, h⟩ := bind_eq_ok.mp h
  obtain ⟨text, -, h⟩ := bind_eq_ok.mp h
  obtain ⟨tokens, htokens, h⟩ := bind_eq_ok.mp h
  obtain rfl := Except.ok.inj h
  obtain ⟨htable, hcandidates, -, hlongest⟩ := builder.fitDelimitedRows_longest hfitted
  refine ⟨contextError_eq_ok.mp htokens, fitted.selectedCount, hlongest, ?_, ?_⟩
  · rw [htable]
    rfl
  · intro record hrecord
    have hle := hlongest.le
    rw [List.length_map] at hle hcandidates
    cases explainability with
    | false => exact absurd hrecord (Option.some_ne_none _ ·.symm)
    | true =>
      obtain rfl := Option.some.inj hrecord
      refine ⟨rfl, rfl, rfl, List.map_take, ?_, ?_, ?_⟩
      · show fitted.selectedCount = ((selectedEntities.take fitted.selectedCount).map (·.id)).length
        rw [List.length_map, List.length_take, Nat.min_eq_left hle]
      · show fitted.candidateCount = _
        rw [added_self, hcandidates]
        exact (List.length_map _).symm
      · show decide (fitted.selectedCount < fitted.candidateCount) = decide (_ < _ ∨ _)
        rw [added_self, hcandidates]
        simp [entityCandidates]

/-- The sections of the expansion are not that of the entities. -/
theorem expansionSections_ne {expansionSection : ExpansionSection} (hkeys : builder.DistinctTables)
    (h : expansionSection ∈ builder.expansionSections selectedEntities) :
    expansionSection.kind ≠ .entities ∧ expansionSection.key ≠ "entities" := by
  have hnotMem := (List.nodup_cons.mp hkeys).1
  rcases List.mem_cons.mp h with rfl | hcovariates
  · exact ⟨nofun, show "relationships" ≠ "entities" by decide⟩
  · obtain ⟨group, hgroup, rfl⟩ := List.mem_map.mp hcovariates
    refine ⟨nofun, fun hkey => hnotMem (List.mem_cons_of_mem _ ?_)⟩
    exact hkey ▸ List.mem_map_of_mem hgroup

/-- **The expansion keeps the last state that fits and reports it.** -/
theorem buildLocalContextCapture_kept (hkeys : builder.DistinctTables) {sections : LocalSections}
    (h : builder.buildLocalContextCapture selectedEntities maxTokens explainability =
      .ok sections) :
    (selectedEntities = [] ∧ sections = ⟨"", ∅, 0, []⟩) ∨
      ∃ entity count attempt,
        builder.buildEntitySection selectedEntities maxTokens explainability = .ok entity ∧
        builder.ops.tokenizer.count entity.text = .ok entity.tokensUsed ∧
        LongestPrefix (builder.AttemptFits selectedEntities maxTokens entity.tokensUsed
          explainability) selectedEntities.length count ∧
        builder.attemptAt selectedEntities maxTokens entity.tokensUsed explainability count =
          .ok attempt ∧
        sections.text = String.intercalate "\n\n"
          ((entity.text :: attempt.text).filter fun text => !blank text) ∧
        sections.tables = attempt.tables.insert "entities" entity.table ∧
        sections.tokensUsed = min usizeMax
          (entity.tokensUsed + (attempt.text.map fun text => builder.recounted text 0).sum) ∧
        (entity.tokensUsed ≤ maxTokens → sections.tokensUsed ≤ maxTokens) ∧
        (∀ expansionSection ∈ builder.localSections selectedEntities,
          builder.Kept selectedEntities maxTokens count sections.tables sections.explainability
            expansionSection) ∧
        ∀ record ∈ sections.explainability,
          ∃ expansionSection ∈ builder.localSections selectedEntities,
            record.kind = expansionSection.kind ∧ record.name = expansionSection.name := by
  unfold LocalContextBuilder.buildLocalContextCapture at h
  by_cases hempty : selectedEntities = []
  · rw [if_pos hempty] at h
    exact Or.inl ⟨hempty, (Except.ok.inj h).symm⟩
  · rw [if_neg hempty] at h
    obtain ⟨entity, hentity, h⟩ := bind_eq_ok.mp h
    obtain ⟨expansion, hexpansion, h⟩ := bind_eq_ok.mp h
    obtain rfl := Except.ok.inj h
    obtain ⟨hcount, hentitySection⟩ := builder.buildEntitySection_reported hentity
    have hle : entity.tokensUsed ≤ usizeMax := builder.ops.tokenizer.count_le _ _ hcount
    obtain ⟨count, attempt, rejected, hlongest, hattempt, hrejected, rfl⟩ :=
      builder.expandLocalGraph_eq_ok hexpansion
    obtain ⟨htext, htables, htokens⟩ := expanded_parts attempt rejected explainability
    obtain ⟨htokensUsed, hkept, -, -, -⟩ := builder.attemptAt_known hkeys hle hattempt
    have hreported := fun record => @expanded_reported builder selectedEntities maxTokens
      entity.tokensUsed explainability hkeys hle count attempt rejected hattempt hrejected record
    obtain ⟨selectedCount, hentityLongest, hentityRows, hentityRecord⟩ := hentitySection
    refine Or.inr ⟨entity, count, attempt, hentity, hcount, hlongest, hattempt, ?_, ?_, ?_, ?_, ?_,
      ?_⟩
    · rw [htext]
    · rw [htables]
    · exact htokens.trans htokensUsed
    · intro hfits
      refine le_of_eq_of_le htokens ?_
      rcases Nat.eq_zero_or_pos count with rfl | hpos
      · obtain rfl := Except.ok.inj hattempt
        exact hfits
      · obtain ⟨other, hother, hotherFits⟩ := hlongest.reached count hpos le_rfl
        obtain rfl := Except.ok.inj (hattempt.symm.trans hother)
        exact hotherFits
    · intro expansionSection hsection
      rcases List.mem_cons.mp hsection with rfl | hsection
      · refine ⟨selectedCount, hentityLongest, ?_, fun record hrecord hkind hname => ?_⟩
        · show ((((Expanded attempt rejected explainability).tables.insert "entities"
            entity.table)["entities"]?).map (·.rows)).getD [] = _
          rw [ExtTreeMap.getElem?_insert_self]
          exact hentityRows
        · rcases List.mem_append.mp hrecord with hrecord | hrecord
          · obtain ⟨-, -, hselected, hreported⟩ :=
              hentityRecord record (Option.mem_toList.mp hrecord)
            exact ⟨hselected, hreported⟩
          · obtain ⟨other, hother, hotherKind, -, -, -⟩ := hreported record hrecord
            exact absurd (hotherKind.symm.trans hkind)
              (builder.expansionSections_ne hkeys hother).1
      · obtain ⟨hkindNe, hkeyNe⟩ := builder.expansionSections_ne hkeys hsection
        obtain ⟨keptCount, hkeptLongest, hkeptRows, -⟩ := hkept expansionSection hsection
        refine ⟨keptCount, hkeptLongest, ?_, fun record hrecord hkind hname => ?_⟩
        · show ((((Expanded attempt rejected explainability).tables.insert "entities"
            entity.table)[expansionSection.key]?).map (·.rows)).getD [] = _
          have hne : ¬ compare "entities" expansionSection.key = .eq := fun heq =>
            hkeyNe (LawfulEqCmp.compare_eq_iff_eq.mp heq).symm
          rw [ExtTreeMap.getElem?_insert, if_neg hne, htables]
          exact hkeptRows
        · rcases List.mem_append.mp hrecord with hrecord | hrecord
          · obtain ⟨hentityKind, -, -, -⟩ := hentityRecord record (Option.mem_toList.mp hrecord)
            exact absurd (hkind.symm.trans hentityKind) hkindNe
          · obtain ⟨other, hother, hotherKind, hotherName, hotherLongest, hotherReported⟩ :=
              hreported record hrecord
            obtain rfl := builder.expansionSections_eq hkeys hother hsection
              (hotherKind.symm.trans hkind) (hotherName.symm.trans hname)
            exact ⟨hotherLongest.unique hkeptLongest, hotherReported⟩
    · intro record hrecord
      rcases List.mem_append.mp hrecord with hrecord | hrecord
      · obtain ⟨hkind, hname, -, -⟩ := hentityRecord record (Option.mem_toList.mp hrecord)
        exact ⟨_, List.mem_cons_self .., hkind, hname⟩
      · obtain ⟨other, hother, hkind, hname, -, -⟩ := hreported record hrecord
        exact ⟨other, List.mem_cons_of_mem _ hother, hkind, hname⟩

end LocalContextBuilder

/-! ### A candidate that was filtered before -/

def toCafe : Relationship := ⟨"r1", none, "ALICE", "CAFE", none, none, some 5, []⟩

def toDock : Relationship := ⟨"r2", none, "ALICE", "DOCK", none, none, some 3, []⟩

/-- One relationship is kept for each entity. -/
def cafeBuilder : LocalContextBuilder where
  method := .local
  config := ⟨⟨0⟩, ⟨0⟩, 5, 10, 1, 8000⟩
  entities := [⟨"e1", none, "ALICE", none, [], [], none⟩, ⟨"e2", none, "BOB", none, [], [], none⟩]
  reports := []
  textUnits := []
  relationships := [toCafe, toDock]
  covariates := []
  index := QueryDataIndex.new
    [⟨"e1", none, "ALICE", none, [], [], none⟩, ⟨"e2", none, "BOB", none, [], [], none⟩] [] []
    [toCafe, toDock] []
  ops := bytesOps

/-- The second relationship is filtered out with one entity. -/
def aliceSelection : RelationshipSelection := ⟨[⟨toCafe, some 1⟩], [⟨toDock, some 1⟩]⟩

def bothSelection : RelationshipSelection := ⟨[⟨toCafe, some 1⟩, ⟨toDock, some 1⟩], []⟩

def cafeLinks : ExtTreeMap String ℕ := ((∅ : ExtTreeMap String ℕ).insert "r1" 1).insert "r2" 1

theorem filterRelationshipsCapture_alice :
    filterRelationshipsCapture (cafeBuilder.entities.take 1) cafeBuilder.relationships
      (cafeBuilder.positionsOf (cafeBuilder.entities.take 1)) cafeBuilder.config.topKRelationships
      ∅ true = (aliceSelection, cafeLinks) := by
  -- all that is sorted is in order
  simp (disch := decide +kernel) only [filterRelationshipsCapture, sortBy,
    List.mergeSort_of_pairwise]
  rw [if_pos (by decide +kernel)]
  congr 1

theorem filterRelationshipsCapture_both :
    filterRelationshipsCapture (cafeBuilder.entities.take 2) cafeBuilder.relationships
      (cafeBuilder.positionsOf (cafeBuilder.entities.take 2)) cafeBuilder.config.topKRelationships
      cafeLinks true = (bothSelection, cafeLinks) := by
  simp (disch := decide +kernel) only [filterRelationshipsCapture, sortBy,
    List.mergeSort_of_pairwise]
  rw [if_pos (by decide +kernel)]
  congr 1

theorem selectionAt_both :
    (cafeBuilder.selectionAt cafeBuilder.entities 2).1 = bothSelection := by
  have hfirst : cafeBuilder.selectionAt cafeBuilder.entities 1 = (aliceSelection, cafeLinks) :=
    filterRelationshipsCapture_alice
  rw [selectionAt, hfirst]
  exact congrArg Prod.fst filterRelationshipsCapture_both

/-- The two attempts of the expansion. -/
theorem expandLocalGraph_cafe (maxTokens entityTokens : ℕ) :
    cafeBuilder.expandLocalGraph cafeBuilder.entities maxTokens entityTokens true = (do
      let first ← cafeBuilder.attemptWith aliceSelection [] maxTokens entityTokens true
      if maxTokens < first.tokensUsed then
        return LocalExpansionAttempt.mk [] ∅ entityTokens
          (rollbackSectionExplainability first.explainability [])
      else
        let both ← cafeBuilder.attemptWith bothSelection [] maxTokens entityTokens true
        if maxTokens < both.tokensUsed then
          return { first with
            explainability :=
              rollbackSectionExplainability both.explainability first.explainability }
        else return both) := by
  show (do
    let first ← cafeBuilder.buildLocalExpansionAttempt (cafeBuilder.entities.take 1)
      (cafeBuilder.positionsOf (cafeBuilder.entities.take 1)) [] maxTokens entityTokens ∅ true
    if maxTokens < first.1.tokensUsed then
      return LocalExpansionAttempt.mk [] ∅ entityTokens
        (rollbackSectionExplainability first.1.explainability [])
    else
      let both ← cafeBuilder.buildLocalExpansionAttempt (cafeBuilder.entities.take 2)
        (cafeBuilder.positionsOf (cafeBuilder.entities.take 2)) [] maxTokens entityTokens first.2
        true
      if maxTokens < both.1.tokensUsed then
        return { first.1 with
          explainability :=
            rollbackSectionExplainability both.1.explainability first.1.explainability }
      else return both.1) = _
  rw [cafeBuilder.buildLocalExpansionAttempt_of_selection filterRelationshipsCapture_alice]
  cases cafeBuilder.attemptWith aliceSelection [] maxTokens entityTokens true with
  | error error => rfl
  | ok first =>
    show (if maxTokens < first.tokensUsed then
        Except.ok (LocalExpansionAttempt.mk [] ∅ entityTokens
          (rollbackSectionExplainability first.explainability []))
      else do
        let both ← cafeBuilder.buildLocalExpansionAttempt (cafeBuilder.entities.take 2)
          (cafeBuilder.positionsOf (cafeBuilder.entities.take 2)) [] maxTokens entityTokens
          cafeLinks true
        if maxTokens < both.1.tokensUsed then
          return { first with
            explainability :=
              rollbackSectionExplainability both.1.explainability first.explainability }
        else return both.1) = _
    rw [cafeBuilder.buildLocalExpansionAttempt_of_selection filterRelationshipsCapture_both]
    cases cafeBuilder.attemptWith bothSelection [] maxTokens entityTokens true with
    | error error => rfl
    | ok both => rfl

/-- What is reported of the relationships within a budget. -/
def reportedRelationships (maxTokens : ℕ) : Except QueryError (List (List String × ℕ × Bool)) :=
  (cafeBuilder.buildLocalContextCapture cafeBuilder.entities maxTokens true).map fun sections =>
    (sections.explainability.filter fun record => record.kind = .relationships).map fun record =>
      (record.selectedRecordIds, record.candidateCount, record.truncated)

/-- Within 180 tokens the attempt with both entities is given up.  It has both relationships as
candidates; the second, which the rank has filtered out before, is not counted. -/
theorem buildLocalContextCapture_reselected :
    reportedRelationships 180 = .ok [(["r1"], 1, false)] ∧
      reportedRelationships 190 = .ok [(["r1", "r2"], 2, false)] ∧
      ((cafeBuilder.relationshipSection cafeBuilder.entities).candidates 2).ids = ["r1", "r2"] ∧
      ((cafeBuilder.relationshipSection cafeBuilder.entities).candidates 2).filtered = [] := by
  have hboth : (cafeBuilder.relationshipSection cafeBuilder.entities).candidates 2 =
      cafeBuilder.relationshipCandidates bothSelection :=
    congrArg cafeBuilder.relationshipCandidates selectionAt_both
  rw [hboth]
  refine ⟨?_, ?_, by decide, by decide⟩
  · rw [reportedRelationships, LocalContextBuilder.buildLocalContextCapture, if_neg (by decide)]
    simp only [expandLocalGraph_cafe]
    decide +kernel
  · rw [reportedRelationships, LocalContextBuilder.buildLocalContextCapture, if_neg (by decide)]
    simp only [expandLocalGraph_cafe]
    decide +kernel

theorem buildLocalContextCapture_kept_cafe : ∃ sections entity count,
    cafeBuilder.buildLocalContextCapture cafeBuilder.entities 180 true = .ok sections ∧
    cafeBuilder.buildEntitySection cafeBuilder.entities 180 true = .ok entity ∧
    sections.tokensUsed ≤ 180 ∧
    LongestPrefix (cafeBuilder.AttemptFits cafeBuilder.entities 180 entity.tokensUsed true) 2 count ∧
    ∀ expansionSection ∈ cafeBuilder.localSections cafeBuilder.entities,
      cafeBuilder.Kept cafeBuilder.entities 180 count sections.tables sections.explainability
        expansionSection := by
  have hok : (cafeBuilder.buildLocalContextCapture cafeBuilder.entities 180 true).toBool = true := by
    rw [LocalContextBuilder.buildLocalContextCapture, if_neg (by decide)]
    simp only [expandLocalGraph_cafe]
    decide +kernel
  have htokens : ((cafeBuilder.buildEntitySection cafeBuilder.entities 180 true).map
      fun entity => decide (entity.tokensUsed ≤ 180)) = .ok true := by
    decide +kernel
  have hkeys : cafeBuilder.DistinctTables := show List.Nodup ["entities", "relationships"] by decide
  cases hsections : cafeBuilder.buildLocalContextCapture cafeBuilder.entities 180 true with
  | error error =>
    rw [hsections] at hok
    cases hok
  | ok sections =>
    rcases cafeBuilder.buildLocalContextCapture_kept hkeys hsections with ⟨hempty, -⟩ | hkept
    · cases hempty
    · obtain ⟨entity, count, -, hentity, -, hlongest, -, -, -, -, hle, hall, -⟩ := hkept
      rw [hentity] at htokens
      have hfits : entity.tokensUsed ≤ 180 := of_decide_eq_true (Except.ok.inj htokens)
      exact ⟨sections, entity, count, rfl, hentity, hle hfits, hlongest, hall⟩

end GraphLoom.Query.Local
