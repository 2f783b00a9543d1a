import GraphLoom.Query.Basic.Search

/-!
# What a Basic query records

A session that has lost nothing at its end had lost nothing before (`Adds`), so each step of a query
adds the records of its events.  From this a completed run has the records of a `BasicTrace`
(`run_entries`).

The candidates have the type of text units and their ranks are positive; the decisions agree with
the section that is recorded behind them.
-/

namespace GraphLoom.Query.Basic

open GraphLoom.Explainability Foundation

section Queries

open Recording BasicQueryExplainability

/-! ### Records that are added -/

/-- The span, the parent span and the event of a record. -/
abbrev Entry := ExplainabilitySpanId × Option ExplainabilitySpanId × ExplainabilityEvent

def entry (record : BasicRecord) : Entry := (record.spanId, record.parentSpanId, record.event)

/-- Unless something is lost, the records are those before and the given ones. -/
structure Adds (s s' : Session) (entries : List Entry) : Prop where
  terminalStarted : s'.terminalStarted = s.terminalStarted
  delivered : s'.deliveryFailureCount = 0 → s.deliveryFailureCount = 0 ∧
    s'.records.map entry = s.records.map entry ++ entries

theorem Adds.refl (s : Session) : Adds s s [] where
  terminalStarted := rfl
  delivered h := ⟨h, (List.append_nil _).symm⟩

theorem Adds.trans {s s' s'' : Session} {entries entries' : List Entry} (h : Adds s s' entries)
    (h' : Adds s' s'' entries') : Adds s s'' (entries ++ entries') where
  terminalStarted := h'.terminalStarted.trans h.terminalStarted
  delivered hdelivered := by
    have hmiddle := h'.delivered hdelivered
    have hfirst := h.delivered hmiddle.1
    refine ⟨hfirst.1, ?_⟩
    rw [hmiddle.2, hfirst.2, List.append_assoc]

/-- Where something is lost, anything may be said of the records. -/
theorem adds_of_lost {s s' : Session} (entries : List Entry)
    (hterminal : s'.terminalStarted = s.terminalStarted) (h : s'.deliveryFailureCount ≠ 0) :
    Adds s s' entries where
  terminalStarted := hterminal
  delivered hdelivered := absurd hdelivered h

theorem adds_markSidecarFailure (s : Session) (entries : List Entry) :
    Adds s (markSidecarFailure s) entries :=
  adds_of_lost entries rfl (Nat.succ_ne_zero _)

section Session

variable {session : BasicQueryExplainability} {s s' : Session}

theorem adds_emit (span : ExplainabilitySpanId) (parent : Option ExplainabilitySpanId)
    (event : ExplainabilityEvent) (s : Session) :
    Adds s (session.emit span parent event s) [(span, parent, event)] := by
  unfold emit
  dsimp only
  split
  · constructor
    · rfl
    · intro h
      exact ⟨h, by simp [entry]⟩
  · exact adds_of_lost _ rfl (Nat.succ_ne_zero _)

/-- A conversion gives the number, or marks a failure. -/
theorem convert_cases (largest value : ℕ) (s : Session) :
    convert largest value s = (some value, s) ∧ value ≤ largest ∨
      convert largest value s = (none, markSidecarFailure s) := by
  unfold convert
  split
  · next h => exact Or.inl ⟨rfl, h⟩
  · exact Or.inr rfl

theorem adds_convert (largest value : ℕ) (s : Session) : Adds s (convert largest value s).2 [] := by
  obtain ⟨h, -⟩ | h := convert_cases largest value s
  · rw [h]
    exact Adds.refl s
  · rw [h]
    exact adds_markSidecarFailure s []

theorem eq_of_convert_eq_some {largest value n : ℕ} (h : (convert largest value s).1 = some n) :
    n = value ∧ n ≤ largest := by
  obtain ⟨hconvert, hle⟩ | hconvert := convert_cases largest value s
  · rw [hconvert] at h
    obtain rfl : value = n := Option.some_inj.mp h
    exact ⟨rfl, hle⟩
  · rw [hconvert] at h
    cases h

theorem convert_eq_some_of_delivered {largest value : ℕ}
    (h : (convert largest value s).2.deliveryFailureCount = 0) :
    (convert largest value s).1 = some value := by
  obtain ⟨hconvert, -⟩ | hconvert := convert_cases largest value s
  · rw [hconvert]
  · rw [hconvert] at h
    cases h

/-! ### The end of a run -/

/-- A run whose end is not lost, and has lost nothing before, ends as completed. -/
theorem finishSuccess_records (hterminal : s.terminalStarted = false)
    (h : (session.finishSuccess s).deliveryFailureCount = 0) :
    s.deliveryFailureCount = 0 ∧ (session.finishSuccess s).records.map entry =
      s.records.map entry ++ [(session.rootSpan, none, .runCompleted session.runElapsed)] := by
  unfold finishSuccess beginTerminal at h ⊢
  rw [hterminal, if_neg Bool.false_ne_true] at h ⊢
  dsimp only at h ⊢
  have hemit := (adds_emit _ _ _ _).delivered h
  have hconvert := (adds_convert _ _ _).delivered hemit.1
  refine ⟨hconvert.1, ?_⟩
  rw [hemit.2]
  have hrecords := hconvert.2
  rw [List.append_nil] at hrecords
  unfold durationMillis at hemit ⊢
  rw [hrecords, if_pos hemit.1, convert_eq_some_of_delivered hemit.1]
  rfl

end Session

/-! ### Computations -/

section Computations

variable {α β : Type} {s s' : Session} {f : α → Recording β} {b : β}

theorem bind_eq_ok {x : Recording α} :
    (x >>= f) s = (.ok b, s') ↔ ∃ a s₁, x s = (.ok a, s₁) ∧ f a s₁ = (.ok b, s') := by
  rcases hx : x s with ⟨_ | a, s₁⟩
  · simp [bind, hx]
  · simp [bind, hx]

theorem pure_eq_ok {a b : α} : (pure a : Recording α) s = (.ok b, s') ↔ a = b ∧ s = s' := by
  show ((Except.ok a : Except QueryError α), s) = (.ok b, s') ↔ _
  simp

theorem lift_then_eq_ok {x : Except QueryError α} :
    (lift x >>= f) s = (.ok b, s') ↔ ∃ a, x = .ok a ∧ f a s = (.ok b, s') := by
  rw [bind_eq_ok]
  simp [lift]

theorem observe_then_eq_ok {session : BasicQueryExplainability}
    {record : BasicQueryExplainability → Session → Session} {f : Unit → Recording β} :
    (observe (some session) record >>= f) s = (.ok b, s') ↔
      f () (record session s) = (.ok b, s') := Iff.rfl

theorem ofState_then_eq_ok {g : Session → α × Session} :
    (ofState g >>= f) s = (.ok b, s') ↔ f (g s).1 (g s).2 = (.ok b, s') := Iff.rfl

end Computations

end Queries

/-! ## What the builder of a Basic context records -/

section Builder

open Recording BasicQueryExplainability BasicContextBuilder

/-! ### Candidates -/

/-- A rank is a positive `u32`. -/
def RankValid (rank : Option ℕ) : Prop := ∀ n, rank = some n → 0 < n ∧ n ≤ u32Max

structure ExplainabilityCandidate.Valid (candidate : ExplainabilityCandidate) : Prop where
  recordType : candidate.recordType = .textUnit
  rank : RankValid candidate.rank

theorem candidatesTryNew_of_valid
    {event : Local.ExplainabilityRecordType → List ExplainabilityCandidate → ExplainabilityEvent}
    {candidates : List ExplainabilityCandidate} (h : ∀ candidate ∈ candidates, candidate.Valid) :
    candidatesTryNew event .textUnit candidates = .ok (event .textUnit candidates) := by
  have hfind : (candidates.zipIdx.find? fun candidate =>
      decide (candidate.1.recordType ≠ .textUnit)) = none := by
    rw [List.find?_eq_none]
    intro candidate hcandidate
    have hmem := List.fst_mem_of_mem_zipIdx hcandidate
    simp [(h _ hmem).recordType]
  unfold candidatesTryNew validateCandidateTypes
  rw [hfind]
  rfl

/-- The decisions agree with a section. -/
structure Agrees (decisions : List ExplainabilityCandidate)
    (contextSection : ExplainabilityContextSection) : Prop where
  kind : contextSection.kind = .sources
  candidateCount : contextSection.candidateCount = decisions.length
  selectedCount : contextSection.selectedCount = contextSection.selectedRecordIds.length
  selectedRecordIds : (decisions.filter (·.selected)).map (·.id) = contextSection.selectedRecordIds

section Builder

variable {builder : BasicContextBuilder} {session : BasicQueryExplainability} {s s' : Session}

theorem annCandidate_spec (result : VectorSearchResult) (index : ℕ) (s : Session) :
    Adds s (builder.annCandidate result index s).2 [] ∧
      (builder.annCandidate result index s).1.Valid := by
  have hconvert : Adds s (usizeToU32 (usizeAdd index 1) s).2 [] := adds_convert _ _ _
  unfold annCandidate
  dsimp only
  constructor
  · split
    · exact hconvert.trans (adds_markSidecarFailure _ [])
    · exact hconvert
  · refine ⟨rfl, ?_⟩
    intro n hn
    have hrank := eq_of_convert_eq_some hn
    have hpos : 0 < usizeAdd index 1 := by
      unfold usizeAdd usizeMax
      omega
    exact ⟨hrank.1 ▸ hpos, hrank.2⟩

theorem annCandidates_spec (index : ℕ) (results : List VectorSearchResult) (s : Session) :
    Adds s (builder.annCandidates index results s).2 [] ∧
      ∀ candidate ∈ (builder.annCandidates index results s).1, candidate.Valid := by
  induction results generalizing index s with
  | nil => exact ⟨Adds.refl s, fun _ h => absurd h List.not_mem_nil⟩
  | cons result results ih =>
    have hfirst := @annCandidate_spec builder result index s
    have hrest := ih (index + 1) (builder.annCandidate result index s).2
    refine ⟨hfirst.1.trans hrest.1, ?_⟩
    intro candidate hcandidate
    obtain rfl | hcandidate := List.mem_cons.mp hcandidate
    · exact hfirst.2
    · exact hrest.2 candidate hcandidate

/-- The metadata of candidates has their ranks. -/
theorem rankValid_metadata {candidates : List ExplainabilityCandidate}
    (h : ∀ candidate ∈ candidates, candidate.Valid)
    (metadataById : InsertionMap String AnnCandidateMetadata)
    (hmetadata : ∀ id metadata, metadataById.get id = some metadata → RankValid metadata.rank) :
    ∀ id metadata, (candidates.foldl insertMetadata metadataById).get id = some metadata →
      RankValid metadata.rank := by
  induction candidates generalizing metadataById with
  | nil => exact hmetadata
  | cons candidate candidates ih =>
    refine ih (fun _ hmem => h _ (List.mem_cons_of_mem _ hmem)) _ ?_
    unfold insertMetadata
    split
    · exact hmetadata
    · intro id metadata hget
      rw [InsertionMap.get_set] at hget
      split at hget
      · obtain rfl := Option.some_inj.mp hget
        exact (h candidate List.mem_cons_self).rank
      · exact hmetadata id metadata hget

/-! ### The budget -/

theorem takeWithinBudget_prefix {candidates selected selected' : List TextUnit}
    {tokens tokens' : ℕ}
    (h : builder.takeWithinBudget tokens selected candidates = .ok (selected', tokens')) :
    ∃ taken rest, candidates = taken ++ rest ∧ selected' = selected ++ taken := by
  induction candidates generalizing tokens selected with
  | nil =>
    obtain ⟨rfl, -⟩ := Prod.mk.inj (Except.ok.inj h)
    exact ⟨[], [], rfl, (List.append_nil _).symm⟩
  | cons textUnit candidates ih =>
    obtain ⟨rowTokens, -, hrow⟩ := Foundation.bind_eq_ok.mp h
    split at hrow
    · obtain ⟨rfl, -⟩ := Prod.mk.inj (Except.ok.inj hrow)
      exact ⟨[], textUnit :: candidates, rfl, (List.append_nil _).symm⟩
    · obtain ⟨taken, rest, hcandidates, hselected⟩ := ih hrow
      refine ⟨textUnit :: taken, rest, congrArg (textUnit :: ·) hcandidates, ?_⟩
      rw [hselected, List.append_assoc, List.singleton_append]

theorem withinBudget_prefix {candidates : List TextUnit} {fitted : BasicBudgetBuild}
    (h : builder.withinBudget candidates = .ok fitted) :
    ∃ rest, candidates = fitted.selected ++ rest := by
  obtain ⟨tokens, -, h⟩ := Foundation.bind_eq_ok.mp h
  obtain ⟨⟨selected, tokens'⟩, htake, h⟩ := Foundation.bind_eq_ok.mp h
  obtain rfl := Except.ok.inj h
  obtain ⟨taken, rest, hcandidates, hselected⟩ := takeWithinBudget_prefix htake
  refine ⟨rest, ?_⟩
  rw [hcandidates, hselected, List.nil_append]

def decisions (candidates : List TextUnit) (selectedCount : ℕ)
    (metadataById : InsertionMap String AnnCandidateMetadata) : List ExplainabilityCandidate :=
  candidates.zipIdx.map fun (textUnit, index) =>
    decision selectedCount metadataById textUnit index

variable {metadataById : InsertionMap String AnnCandidateMetadata}

theorem decisions_valid (candidates : List TextUnit) (selectedCount : ℕ)
    (h : ∀ id metadata, metadataById.get id = some metadata → RankValid metadata.rank) :
    ∀ candidate ∈ decisions candidates selectedCount metadataById, candidate.Valid := by
  intro candidate hcandidate
  obtain ⟨⟨textUnit, index⟩, -, rfl⟩ := List.mem_map.mp hcandidate
  refine ⟨rfl, ?_⟩
  intro n hn
  obtain ⟨metadata, hget, hrank⟩ := Option.bind_eq_some_iff.mp hn
  exact h _ metadata hget n hrank

/-- The selected decisions are those on the selected text units. -/
theorem filter_decisions (selected rest : List TextUnit) :
    ((decisions (selected ++ rest) selected.length metadataById).filter (·.selected)).map (·.id) =
      selected.map (·.id) := by
  have hselected : ∀ row ∈ (selected.zipIdx.map fun (textUnit, index) =>
      decision selected.length metadataById textUnit index), row.selected = true := by
    intro row hrow
    obtain ⟨⟨textUnit, index⟩, hmem, rfl⟩ := List.mem_map.mp hrow
    have hlt := List.snd_lt_of_mem_zipIdx hmem
    show decide (index < selected.length) = true
    exact decide_eq_true (by omega)
  have hrest : ∀ row ∈ ((rest.zipIdx selected.length).map fun (textUnit, index) =>
      decision selected.length metadataById textUnit index), ¬row.selected = true := by
    intro row hrow
    obtain ⟨⟨textUnit, index⟩, hmem, rfl⟩ := List.mem_map.mp hrow
    have hle := List.le_snd_of_mem_zipIdx hmem
    show ¬decide (index < selected.length) = true
    simpa using hle
  unfold decisions
  rw [List.zipIdx_append, List.map_append, List.filter_append,
    List.filter_eq_self.mpr hselected, Nat.zero_add, List.filter_eq_nil_iff.mpr hrest,
    List.append_nil, List.map_map]
  calc (selected.zipIdx.map fun row => row.1.id)
      = (selected.zipIdx.map Prod.fst).map (·.id) := (List.map_map ..).symm
    _ = selected.map (·.id) := by rw [List.zipIdx_map_fst]

/-! ### The records -/

theorem emitRetrievedCandidates_spec (results : List VectorSearchResult) (s : Session) :
    ∃ candidates, (∀ candidate ∈ candidates, candidate.Valid) ∧
      (∀ id metadata, (builder.emitRetrievedCandidates session results s).1.get id = some metadata →
        RankValid metadata.rank) ∧
      Adds s (builder.emitRetrievedCandidates session results s).2
        [(session.retrieval, some session.rootSpan, .candidatesRetrieved .textUnit candidates)] := by
  have hspec := @annCandidates_spec builder 0 results s
  refine ⟨(builder.annCandidates 0 results s).1, hspec.2, ?_, ?_⟩
  · refine rankValid_metadata hspec.2 [] ?_
    intro id metadata h
    cases h
  · unfold emitRetrievedCandidates
    dsimp only
    rw [candidatesTryNew_of_valid hspec.2]
    exact hspec.1.trans (adds_emit _ _ _ _)

theorem adds_emitContextBudget (s : Session) :
    Adds s (builder.emitContextBudget session s) [(session.context, some session.rootSpan,
      .contextBudgetAllocated builder.maxContextTokens [(.sources, builder.maxContextTokens)])] := by
  unfold emitContextBudget usizeToU64
  obtain ⟨h, -⟩ | h := convert_cases u64Max builder.maxContextTokens s
  · rw [h]
    exact adds_emit _ _ _ _
  · rw [h]
    exact adds_markSidecarFailure s _

theorem adds_emitFilteredCandidates (candidates : List TextUnit) (selectedCount : ℕ)
    (h : ∀ id metadata, metadataById.get id = some metadata → RankValid metadata.rank)
    (s : Session) :
    Adds s (emitFilteredCandidates candidates selectedCount (some metadataById) session s)
      [(session.retrieval, some session.rootSpan,
        .candidatesFiltered .textUnit (decisions candidates selectedCount metadataById))] := by
  have hvalid := decisions_valid candidates selectedCount h
  unfold emitFilteredCandidates
  dsimp only
  have htry := @candidatesTryNew_of_valid .candidatesFiltered _ hvalid
  unfold decisions at htry
  rw [htry]
  exact adds_emit _ _ _ _

/-- The section of a context. -/
def sourcesSection (builder : BasicContextBuilder) (candidates : List TextUnit)
    (fitted : BasicBudgetBuild) : ExplainabilityContextSection :=
  ⟨.sources, builder.maxContextTokens, fitted.tokensUsed, candidates.length,
    fitted.selected.length, fitted.truncated, fitted.selected.map (·.id)⟩

theorem adds_emitContextCompleted (candidates : List TextUnit) (fitted : BasicBudgetBuild)
    (contextText : String) (s : Session) :
    Adds s (builder.emitContextCompleted candidates fitted contextText session s)
      [(session.context, some session.rootSpan,
          .contextSectionBuilt (sourcesSection builder candidates fitted)),
        (session.context, some session.rootSpan,
          .contextCompleted fitted.tokensUsed (session.content contextText))] := by
  have hbudget := adds_convert u64Max builder.maxContextTokens s
  have htokens := adds_convert u64Max fitted.tokensUsed
    (convert u64Max builder.maxContextTokens s).2
  have hcount := adds_convert u64Max candidates.length
    (convert u64Max fitted.tokensUsed (convert u64Max builder.maxContextTokens s).2).2
  have hselected := adds_convert u64Max fitted.selected.length
    (convert u64Max candidates.length
      (convert u64Max fitted.tokensUsed (convert u64Max builder.maxContextTokens s).2).2).2
  have hadds := ((hbudget.trans htokens).trans hcount).trans hselected
  unfold emitContextCompleted usizeToU64
  dsimp only
  split
  · next h₁ h₂ h₃ h₄ =>
    rw [(eq_of_convert_eq_some h₁).1, (eq_of_convert_eq_some h₂).1,
      (eq_of_convert_eq_some h₃).1, (eq_of_convert_eq_some h₄).1]
    exact hadds.trans ((adds_emit _ _ _ _).trans (adds_emit _ _ _ _))
  · next hnone =>
    -- a number that was not converted is lost
    refine adds_of_lost _ hadds.terminalStarted ?_
    intro hdelivered
    have h₃ := (hselected.delivered hdelivered).1
    have h₂ := (hcount.delivered h₃).1
    have h₁ := (htokens.delivered h₂).1
    exact hnone _ _ _ _ (convert_eq_some_of_delivered h₁) (convert_eq_some_of_delivered h₂)
      (convert_eq_some_of_delivered h₃) (convert_eq_some_of_delivered hdelivered)

theorem adds_emitEmbeddingCompleted (promptTokens dimensions : ℕ) (s : Session) :
    Adds s (builder.emitEmbeddingCompleted promptTokens dimensions session s)
      [(session.embedding, some session.rootSpan,
        .embeddingCompleted builder.embeddingModelId promptTokens dimensions)] := by
  have htokens := adds_convert u64Max promptTokens s
  have hdimensions := adds_convert u32Max dimensions (convert u64Max promptTokens s).2
  have hadds := htokens.trans hdimensions
  unfold emitEmbeddingCompleted usizeToU64 usizeToU32
  dsimp only
  split
  · next h₁ h₂ =>
    rw [(eq_of_convert_eq_some h₁).1, (eq_of_convert_eq_some h₂).1]
    exact hadds.trans (adds_emit _ _ _ _)
  · next hnone =>
    refine adds_of_lost _ hadds.terminalStarted ?_
    intro hdelivered
    have h₁ := (hdimensions.delivered hdelivered).1
    exact hnone _ _ (convert_eq_some_of_delivered h₁) (convert_eq_some_of_delivered hdelivered)

/-! ### The build -/

/-- What the retrieval records: the skip, or the embedding and the candidates. -/
def retrievalEntries (session : BasicQueryExplainability) (query modelId : String)
    (promptTokens dimensions : ℕ) (candidates : List ExplainabilityCandidate) : List Entry :=
  if query = "" then
    [(session.retrieval, some session.rootSpan, .basicRetrievalSkipped .emptyQuery)]
  else
    [(session.embedding, some session.rootSpan,
        .embeddingStarted modelId (session.content query)),
      (session.embedding, some session.rootSpan,
        .embeddingCompleted modelId promptTokens dimensions),
      (session.retrieval, some session.rootSpan, .candidatesRetrieved .textUnit candidates)]

variable {query : String} {retrieved : BasicRetrievalBuild}

/-- A retrieval adds its entries, with valid candidates and ranks. -/
def Retrieves (session : BasicQueryExplainability) (query modelId : String)
    (retrieved : BasicRetrievalBuild) (s s' : Session) : Prop :=
  ∃ promptTokens dimensions candidates metadataById,
    (∀ candidate ∈ candidates, candidate.Valid) ∧
    retrieved.metadataById = some metadataById ∧
    (∀ id metadata, metadataById.get id = some metadata → RankValid metadata.rank) ∧
    Adds s s' (retrievalEntries session query modelId promptTokens dimensions candidates)

theorem retrieve_spec (hquery : query ≠ "")
    (h : builder.retrieve query (some session) s = (.ok retrieved, s')) :
    Retrieves session query builder.embeddingModelId retrieved s s' := by
  obtain ⟨⟨promptTokens, vector⟩, -, h⟩ := lift_then_eq_ok.mp (observe_then_eq_ok.mp h)
  obtain ⟨results, -, h⟩ := lift_then_eq_ok.mp (observe_then_eq_ok.mp h)
  have h := ofState_then_eq_ok.mp h
  obtain ⟨rfl, rfl⟩ := pure_eq_ok.mp h
  obtain ⟨candidates, hvalid, hmetadata, hadds⟩ :=
    @emitRetrievedCandidates_spec builder session results
      (builder.emitEmbeddingCompleted promptTokens vector.length session
        (builder.emitEmbeddingStarted query session s))
  refine ⟨promptTokens, vector.length, candidates, _, hvalid, rfl, hmetadata, ?_⟩
  unfold retrievalEntries
  rw [if_neg hquery]
  exact ((adds_emit _ _ _ _).trans (adds_emitEmbeddingCompleted _ _ _)).trans hadds

theorem retrieveUnlessEmpty_spec
    (h : builder.retrieveUnlessEmpty query (some session) s = (.ok retrieved, s')) :
    Retrieves session query builder.embeddingModelId retrieved s s' := by
  unfold retrieveUnlessEmpty at h
  split at h
  · next hquery =>
    have h := observe_then_eq_ok.mp h
    obtain ⟨rfl, rfl⟩ := pure_eq_ok.mp h
    refine ⟨0, 0, [], [], fun _ h => absurd h List.not_mem_nil, rfl, ?_, ?_⟩
    · intro id metadata h
      cases h
    unfold retrievalEntries
    rw [if_pos hquery]
    exact adds_emit _ _ _ _
  · next hquery => exact retrieve_spec hquery h

/-- What the builder records behind the retrieval. -/
def contextEntries (session : BasicQueryExplainability)
    (decisions : List ExplainabilityCandidate) (contextSection : ExplainabilityContextSection)
    (contextText : String) : List Entry :=
  [(session.context, some session.rootSpan, .contextBudgetAllocated contextSection.tokenBudget
      [(.sources, contextSection.tokenBudget)]),
    (session.retrieval, some session.rootSpan, .candidatesFiltered .textUnit decisions),
    (session.context, some session.rootSpan, .contextSectionBuilt contextSection),
    (session.context, some session.rootSpan,
      .contextCompleted contextSection.tokensUsed (session.content contextText))]

theorem buildExplainable_spec {built : BasicContextBuild}
    (h : builder.buildExplainable query (some session) s = (.ok built, s')) :
    ∃ promptTokens dimensions candidates decisions contextSection,
      (∀ candidate ∈ candidates, candidate.Valid) ∧
      (∀ candidate ∈ decisions, candidate.Valid) ∧
      Agrees decisions contextSection ∧
      Adds s s' (retrievalEntries session query builder.embeddingModelId promptTokens dimensions
        candidates ++ contextEntries session decisions contextSection built.context.text) := by
  obtain ⟨retrieved, s₁, hretrieved, h⟩ := bind_eq_ok.mp h
  obtain ⟨fitted, hfitted, h⟩ := lift_then_eq_ok.mp (observe_then_eq_ok.mp h)
  obtain ⟨contextText, -, h⟩ := lift_then_eq_ok.mp (observe_then_eq_ok.mp h)
  have h := observe_then_eq_ok.mp h
  obtain ⟨rfl, rfl⟩ := pure_eq_ok.mp h
  obtain ⟨promptTokens, dimensions, candidates, metadataById, hvalid, hsome, hmetadata, hadds⟩ :=
    retrieveUnlessEmpty_spec hretrieved
  obtain ⟨rest, hrest⟩ := withinBudget_prefix hfitted
  rw [hsome, hrest]
  refine ⟨promptTokens, dimensions, candidates,
    decisions (fitted.selected ++ rest) fitted.selected.length metadataById,
    sourcesSection builder (fitted.selected ++ rest) fitted, hvalid,
    decisions_valid _ _ hmetadata, ?_, ?_⟩
  · refine ⟨rfl, ?_, ?_, filter_decisions fitted.selected rest⟩
    · simp [sourcesSection, decisions]
    · simp [sourcesSection]
  · exact hadds.trans (((adds_emitContextBudget _).trans
      (adds_emitFilteredCandidates _ _ hmetadata _)).trans (adds_emitContextCompleted _ _ _ _))

end Builder

end Builder

end GraphLoom.Query.Basic
