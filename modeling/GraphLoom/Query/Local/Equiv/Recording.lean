import GraphLoom.Query.Local.Context

/-!
# Recording a local context

Two builds of the same context, one with a session and one without, select the same records and
render the same text and tables (`buildContextSections_recording`).
-/

namespace GraphLoom.Query.Local

open Foundation Std Related LocalContextBuilder

namespace LocalContextBuilder

variable (builder : LocalContextBuilder)

/-! ### Tokens -/

omit builder in
theorem contextError_eq_ok {α : Type} {method : SearchMethod} {operation : String}
    {x : Except String α} {a : α} :
    contextError method operation x = .ok a ↔ x = .ok a := by
  cases x with
  | error message => exact iff_of_false (fun h => nomatch h) (fun h => nomatch h)
  | ok a' => exact Iff.of_eq (by rw [contextError, Except.ok.injEq, Except.ok.injEq])

theorem count_le {text operation : String} {tokens : ℕ}
    (h : builder.count text operation = .ok tokens) : tokens ≤ usizeMax :=
  builder.ops.tokenizer.count_le text tokens (contextError_eq_ok.mp h)

/-! ### Selections -/

/-- The same selection, up to what is recorded of it. -/
theorem selectCommunityReports_selected (found : List (String × ℕ)) :
    (builder.selectCommunityReports found true).selected =
      (builder.selectCommunityReports found false).selected := by
  have hstep : ∀ (selection selection' : CommunitySelection) (found : String × ℕ),
      selection.selected = selection'.selected →
      (builder.selectCommunityReport selection found).selected =
        (builder.selectCommunityReport selection' found).selected := by
    intro selection selection' found h
    unfold selectCommunityReport
    cases (builder.index.reportByCommunityId[found.1]?).bind (builder.reports[·]?) with
    | none => exact h
    | some report =>
      dsimp only
      split_ifs
      · rw [h]
      · exact h
  have hfold : ∀ (selection selection' : CommunitySelection),
      selection.selected = selection'.selected →
      (found.foldl builder.selectCommunityReport selection).selected =
        (found.foldl builder.selectCommunityReport selection').selected := by
    induction found with
    | nil => exact fun _ _ h => h
    | cons first rest ih => exact fun _ _ h => ih _ _ (hstep _ _ first h)
  exact hfold _ _ rfl

variable (selectedEntities : List Entity)

theorem filterRelationshipsCapture_selected
    (relationships : List Relationship) (positions : ExtTreeSet ℕ) (topK : ℕ)
    (learnedLinks : ExtTreeMap String ℕ) :
    (filterRelationshipsCapture selectedEntities relationships positions topK learnedLinks
        true).1.selected =
      (filterRelationshipsCapture selectedEntities relationships positions topK learnedLinks
        false).1.selected ∧
    (filterRelationshipsCapture selectedEntities relationships positions topK learnedLinks
        false).1.rankFiltered = [] ∧
    (filterRelationshipsCapture selectedEntities relationships positions topK learnedLinks true).2 =
      (filterRelationshipsCapture selectedEntities relationships positions topK learnedLinks
        false).2 := by
  have hfalse : ¬ (false = true) := Bool.false_ne_true
  unfold filterRelationshipsCapture
  dsimp only
  simp only [if_neg hfalse, if_true]
  split_ifs
  · exact ⟨rfl, rfl, rfl⟩
  · exact ⟨rfl, rfl, rfl⟩

theorem selectSourceTextUnits_ranked :
    (builder.selectSourceTextUnits selectedEntities true).ranked =
      (builder.selectSourceTextUnits selectedEntities false).ranked ∧
    (builder.selectSourceTextUnits selectedEntities false).missing = none := by
  -- without a session nothing is recorded as missing at any time
  have hstep : ∀ (order : ℕ) (relationships : List Relationship)
      (state state' : ExtTreeSet String × SourceSelection) (textUnitId : String),
      (state.1 = state'.1 ∧ state.2.ranked = state'.2.ranked ∧ state'.2.missing = none) →
      (builder.selectTextUnit order relationships state textUnitId).1 =
          (builder.selectTextUnit order relationships state' textUnitId).1 ∧
        (builder.selectTextUnit order relationships state textUnitId).2.ranked =
          (builder.selectTextUnit order relationships state' textUnitId).2.ranked ∧
        (builder.selectTextUnit order relationships state' textUnitId).2.missing = none := by
    intro order relationships ⟨seen, selection⟩ ⟨seen', selection'⟩ textUnitId h
    obtain ⟨hseen, hranked, hmissing⟩ := h
    dsimp only at hseen hranked hmissing
    subst hseen
    unfold selectTextUnit
    dsimp only
    split_ifs
    · exact ⟨rfl, hranked, hmissing⟩
    · cases (builder.index.textUnitById[textUnitId]?).bind (builder.textUnits[·]?) with
      | none => exact ⟨rfl, hranked, by rw [hmissing]; rfl⟩
      | some textUnit => exact ⟨rfl, by rw [hranked], hmissing⟩
  have hunits : ∀ (order : ℕ) (relationships : List Relationship) (textUnitIds : List String)
      (state state' : ExtTreeSet String × SourceSelection),
      (state.1 = state'.1 ∧ state.2.ranked = state'.2.ranked ∧ state'.2.missing = none) →
      (textUnitIds.foldl (builder.selectTextUnit order relationships) state).1 =
          (textUnitIds.foldl (builder.selectTextUnit order relationships) state').1 ∧
        (textUnitIds.foldl (builder.selectTextUnit order relationships) state).2.ranked =
          (textUnitIds.foldl (builder.selectTextUnit order relationships) state').2.ranked ∧
        (textUnitIds.foldl (builder.selectTextUnit order relationships) state').2.missing =
          none := by
    intro order relationships textUnitIds
    induction textUnitIds with
    | nil => exact fun _ _ h => h
    | cons textUnitId textUnitIds ih =>
      exact fun _ _ h => ih _ _ (hstep order relationships _ _ textUnitId h)
  have hentities : ∀ (entities : List (Entity × ℕ))
      (state state' : ExtTreeSet String × SourceSelection),
      (state.1 = state'.1 ∧ state.2.ranked = state'.2.ranked ∧ state'.2.missing = none) →
      (entities.foldl (fun state entity => entity.1.textUnitIds.foldl
          (builder.selectTextUnit entity.2 (builder.entityRelationships entity.1)) state)
            state).2.ranked =
          (entities.foldl (fun state entity => entity.1.textUnitIds.foldl
            (builder.selectTextUnit entity.2 (builder.entityRelationships entity.1)) state)
              state').2.ranked ∧
        (entities.foldl (fun state entity => entity.1.textUnitIds.foldl
          (builder.selectTextUnit entity.2 (builder.entityRelationships entity.1)) state)
            state').2.missing = none := by
    intro entities
    induction entities with
    | nil => exact fun _ _ h => h.2
    | cons entity entities ih =>
      exact fun _ _ h => ih _ _ (hunits entity.2 _ entity.1.textUnitIds _ _ h)
  obtain ⟨hranked, hmissing⟩ := hentities selectedEntities.zipIdx (∅, ⟨[], some []⟩)
    (∅, ⟨[], none⟩) ⟨rfl, rfl, rfl⟩
  exact ⟨congrArg (sortBy compareSources) hranked, hmissing⟩

/-! ### The conversation -/

def SameConversation : Option ConversationHistorySection → Option ConversationHistorySection → Prop
  | some a, some b => a.text = b.text ∧ a.table = b.table ∧ a.tokensUsed = b.tokensUsed
  | none, none => True
  | _, _ => False

theorem buildConversationHistoryCapture_recording (history : ConversationHistory)
    (remaining : ℕ) (explainability : Bool) :
    Related SameConversation
      (builder.buildConversationHistoryCapture history remaining explainability)
      (builder.buildConversationHistoryCapture history remaining false) := by
  unfold buildConversationHistoryCapture
  refine bind_same fun built _ => ?_
  dsimp only
  split_ifs
  · exact ok trivial
  · refine bind_same fun tokens _ => ?_
    exact ok ⟨rfl, rfl, rfl⟩

/-! ### Sections around the entities -/

/-- Two sections with the same text, table and tokens. -/
def SameSection (a b : ContextSection) : Prop :=
  a.text = b.text ∧ a.table = b.table ∧ a.tokensUsed = b.tokensUsed

/-- A section of relationships that is recorded only has no text and no rows. -/
def SameRelationships : Option ContextSection → Option ContextSection → Prop
  | some a, some b => SameSection a b
  | some a, none => a.text = "" ∧ a.table = ⟨relationshipColumns, []⟩
  | none, none => True
  | none, some _ => False

def SameCovariates : Option ContextSection → Option ContextSection → Prop
  | some a, some b => SameSection a b
  | none, none => True
  | _, _ => False

def SameAttempt (a b : LocalExpansionAttempt) : Prop :=
  a.text = b.text ∧ a.tables = b.tables ∧ a.tokensUsed = b.tokensUsed

theorem buildEntitySection_recording (maxTokens : ℕ) :
    Related (fun a b : EntitySection => a.text = b.text ∧ a.table = b.table ∧
        a.tokensUsed = b.tokensUsed ∧ a.tokensUsed ≤ usizeMax)
      (builder.buildEntitySection selectedEntities maxTokens true)
      (builder.buildEntitySection selectedEntities maxTokens false) := by
  unfold buildEntitySection
  refine bind_same fun fitted _ => ?_
  refine bind_same fun text _ => ?_
  refine bind_same fun tokens htokens => ?_
  exact ok ⟨rfl, rfl, rfl, builder.count_le htokens⟩

theorem buildRelationshipContextFromSelection_recording (a b : RelationshipSelection)
    (hselected : a.selected = b.selected) (hfiltered : b.rankFiltered = []) (maxTokens : ℕ) :
    Related SameRelationships (builder.buildRelationshipContextFromSelection a maxTokens true)
      (builder.buildRelationshipContextFromSelection b maxTokens false) := by
  unfold buildRelationshipContextFromSelection
  rw [hselected, hfiltered]
  by_cases hempty : b.selected = []
  · rw [if_pos (⟨hempty, rfl⟩ : b.selected = [] ∧ [] = [])]
    split_ifs with hnone
    · exact ok trivial
    · exact ok ⟨rfl, rfl⟩
  · rw [if_neg fun h => hempty h.1, if_neg hempty, if_neg fun h => hempty h.1, if_neg hempty]
    refine bind_same fun fitted _ => ?_
    refine bind_same fun text _ => ?_
    exact ok ⟨rfl, rfl, rfl⟩

theorem buildRelationshipContextFromPositionsCapture_recording
    (positions : ExtTreeSet ℕ) (maxTokens : ℕ) (learnedLinks : ExtTreeMap String ℕ) :
    Related (fun a b => SameRelationships a.1 b.1 ∧ a.2 = b.2)
      (builder.buildRelationshipContextFromPositionsCapture selectedEntities positions maxTokens
        learnedLinks true)
      (builder.buildRelationshipContextFromPositionsCapture selectedEntities positions maxTokens
        learnedLinks false) := by
  obtain ⟨hselected, hfiltered, hlinks⟩ := filterRelationshipsCapture_selected selectedEntities
    builder.relationships positions builder.config.topKRelationships learnedLinks
  have hsection := builder.buildRelationshipContextFromSelection_recording _ _ hselected hfiltered
    maxTokens
  exact hsection.bind fun _ _ h => ok ⟨h, hlinks⟩

theorem buildCovariateContextFromPositionsCapture_recording (name : String)
    (groupPositions : ExtTreeSet ℕ) (positions : List ℕ) (maxTokens : ℕ) :
    Related SameCovariates
      (builder.buildCovariateContextFromPositionsCapture name groupPositions positions maxTokens
        true)
      (builder.buildCovariateContextFromPositionsCapture name groupPositions positions maxTokens
        false) := by
  unfold buildCovariateContextFromPositionsCapture
  dsimp only
  split_ifs
  · exact ok trivial
  · refine bind_same fun fitted _ => ?_
    refine bind_same fun text _ => ?_
    exact ok ⟨rfl, rfl, rfl⟩

theorem addCovariates_recording (covariatePositions : List ℕ) (maxTokens : ℕ)
    (a b : LocalExpansionAttempt) (group : String × ExtTreeSet ℕ) (h : SameAttempt a b) :
    Related SameAttempt (builder.addCovariates covariatePositions maxTokens true a group)
      (builder.addCovariates covariatePositions maxTokens false b group) := by
  obtain ⟨htext, htables, htokens⟩ := h
  have hsection := builder.buildCovariateContextFromPositionsCapture_recording group.1 group.2
    covariatePositions maxTokens
  refine hsection.bind fun section₁ section₂ hsame => ?_
  cases section₁ with
  | none =>
    cases section₂ with
    | none =>
      refine ok ⟨htext, ?_, htokens⟩
      show a.tables.insert _ _ = b.tables.insert _ _
      rw [htables]
    | some _ => exact hsame.elim
  | some first =>
    cases section₂ with
    | none => exact hsame.elim
    | some second =>
      obtain ⟨hstext, hstable, -⟩ := hsame
      dsimp only
      rw [hstext, hstable]
      refine bind_same fun tokens _ => ?_
      refine ok ⟨?_, ?_, ?_⟩
      · rw [htext]
      · rw [htables]
      · rw [htokens]

/-- A section that is recorded only adds no tokens to those of the entities. -/
theorem addRelationships_recording (a b : Option ContextSection) (maxTokens entityTokens : ℕ)
    (hle : entityTokens ≤ usizeMax) (h : SameRelationships a b) :
    Related SameAttempt (builder.addRelationships a maxTokens entityTokens true)
      (builder.addRelationships b maxTokens entityTokens false) := by
  cases a with
  | none =>
    cases b with
    | none => exact ok ⟨rfl, rfl, rfl⟩
    | some _ => exact h.elim
  | some first =>
    cases b with
    | none =>
      obtain ⟨htext, htable⟩ := h
      have hzero : usizeAdd entityTokens 0 = entityTokens := Nat.min_eq_right hle
      unfold addRelationships
      dsimp only
      rw [if_pos htext, if_pos htext, htable]
      exact ok ⟨rfl, rfl, hzero⟩
    | some second =>
      obtain ⟨htext, htable, -⟩ := h
      unfold addRelationships
      dsimp only
      rw [htext, htable]
      split_ifs
      · exact ok ⟨rfl, rfl, rfl⟩
      · refine bind_same fun tokens _ => ?_
        exact ok ⟨rfl, rfl, rfl⟩

theorem buildLocalExpansionAttempt_recording (currentEntities : List Entity)
    (positions : ExtTreeSet ℕ) (covariatePositions : List ℕ) (maxTokens entityTokens : ℕ)
    (learnedLinks : ExtTreeMap String ℕ) (hle : entityTokens ≤ usizeMax) :
    Related (fun a b => SameAttempt a.1 b.1 ∧ a.2 = b.2)
      (builder.buildLocalExpansionAttempt currentEntities positions covariatePositions maxTokens
        entityTokens learnedLinks true)
      (builder.buildLocalExpansionAttempt currentEntities positions covariatePositions maxTokens
        entityTokens learnedLinks false) := by
  have hrelationships := builder.buildRelationshipContextFromPositionsCapture_recording
    currentEntities positions maxTokens learnedLinks
  refine hrelationships.bind fun first second h => ?_
  obtain ⟨hsection, hlinks⟩ := h
  refine (builder.addRelationships_recording _ _ maxTokens entityTokens hle hsection).bind
    fun a b hattempt => ?_
  refine (foldlM (fun a b group h => builder.addCovariates_recording covariatePositions
    maxTokens a b group h) hattempt _).bind fun a' b' h' => ?_
  exact ok ⟨h', hlinks⟩

/-- Going back restores what was accepted, in both runs. -/
theorem expandFrom_recording (maxTokens entityTokens : ℕ) (hle : entityTokens ≤ usizeMax)
    (rest : List Entity) : ∀ (done : List Entity) (a b : LocalExpansionAttempt)
      (learnedLinks : ExtTreeMap String ℕ) (positions : ExtTreeSet ℕ)
      (covariatePositions : List ℕ), SameAttempt a b →
      Related SameAttempt
        (builder.expandFrom maxTokens entityTokens true done a learnedLinks positions
          covariatePositions rest)
        (builder.expandFrom maxTokens entityTokens false done b learnedLinks positions
          covariatePositions rest) := by
  induction rest with
  | nil => exact fun _ _ _ _ _ _ h => ok h
  | cons entity rest ih =>
    intro done a b learnedLinks positions covariatePositions h
    unfold expandFrom
    refine (builder.buildLocalExpansionAttempt_recording _ _ _ maxTokens entityTokens _ hle).bind
      fun first second hattempt => ?_
    obtain ⟨hsame, hlinks⟩ := hattempt
    dsimp only
    rw [hlinks, hsame.2.2]
    by_cases hover : maxTokens < second.1.tokensUsed
    · rw [if_pos hover, if_pos hover]
      exact ok h
    · rw [if_neg hover, if_neg hover]
      exact ih _ _ _ _ _ _ hsame

theorem expandLocalGraph_recording (maxTokens entityTokens : ℕ) (hle : entityTokens ≤ usizeMax) :
    Related SameAttempt (builder.expandLocalGraph selectedEntities maxTokens entityTokens true)
      (builder.expandLocalGraph selectedEntities maxTokens entityTokens false) :=
  builder.expandFrom_recording maxTokens entityTokens hle selectedEntities [] _ _ ∅ ∅ []
    ⟨rfl, rfl, rfl⟩

theorem buildLocalContextCapture_recording (maxTokens : ℕ) :
    Related (fun a b : LocalSections => a.text = b.text ∧ a.tables = b.tables ∧
        a.tokensUsed = b.tokensUsed)
      (builder.buildLocalContextCapture selectedEntities maxTokens true)
      (builder.buildLocalContextCapture selectedEntities maxTokens false) := by
  unfold buildLocalContextCapture
  split_ifs
  · exact ok ⟨rfl, rfl, rfl⟩
  · refine (builder.buildEntitySection_recording selectedEntities maxTokens).bind
      fun first second hentity => ?_
    obtain ⟨htext, htable, htokens, hle⟩ := hentity
    rw [htokens] at hle ⊢
    refine (builder.expandLocalGraph_recording selectedEntities maxTokens _ hle).bind
      fun a b hexpansion => ?_
    obtain ⟨hatext, hatables, hatokens⟩ := hexpansion
    refine ok ⟨?_, ?_, hatokens⟩
    · rw [htext, hatext]
    · rw [htable, hatables]

end LocalContextBuilder

end GraphLoom.Query.Local
