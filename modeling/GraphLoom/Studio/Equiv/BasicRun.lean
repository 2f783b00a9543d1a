import GraphLoom.Query.Basic.Equiv.Search
import GraphLoom.Studio.Equiv.BasicTrace
import GraphLoom.Studio.Equiv.BasicWire
import Mathlib.Data.Nat.Cast.Order.Ring

/-!
# The timeline of a completed Basic query

The timeline reads back what a completed query has recorded, unless the query was empty or a number
is too large for the explorer (`buildBasicSemanticTimeline_reading`).
-/

namespace GraphLoom.Studio.BasicWire

open Foundation Js SemanticBasic GraphLoom.Explainability
open Query.Basic (BasicQueryExplainability BasicQueryRuntime BasicRecord BasicTrace entry)

/-! ### Reading back -/

def retrievedOf : Query.Basic.ExplainabilityEvent → List Query.Basic.ExplainabilityCandidate
  | .candidatesRetrieved _ candidates => candidates
  | _ => []

def filteredOf : Query.Basic.ExplainabilityEvent → List Query.Basic.ExplainabilityCandidate
  | .candidatesFiltered _ candidates => candidates
  | _ => []

/-- The summaries show what the events say. -/
structure Reading (query : String) (events : List Query.Basic.ExplainabilityEvent)
    (retrieval : BasicRetrievalSummary) (context : BasicContextSummary)
    (answer : BasicAnswerSummary) : Prop where
  retrievalStatus : retrieval.status = if query = "" then .skipped else .retrieved
  contextStatus : context.status = .completed
  answerStatus : answer.status = .generated
  candidates : retrieval.candidates = (events.flatMap retrievedOf).map shownCandidate
  decisions : context.candidates = (events.flatMap filteredOf).map shownCandidate
  embedding : ∀ (modelId : String) (promptTokens dimensions : ℕ),
    .embeddingCompleted modelId promptTokens dimensions ∈ events →
      retrieval.model = some modelId ∧ retrieval.promptTokens = some (promptTokens : ℤ) ∧
        retrieval.dimensions = some (dimensions : ℤ)
  contextSection : ∃ contextSection, .contextSectionBuilt contextSection ∈ events ∧
    context.selectedRecordIds = contextSection.selectedRecordIds ∧
    context.candidateCount = some (contextSection.candidateCount : ℤ) ∧
    context.selectedCount = some (contextSection.selectedCount : ℤ) ∧
    context.tokenBudget = some (contextSection.tokenBudget : ℤ) ∧
    context.budgetedTokensUsed = some (contextSection.tokensUsed : ℤ) ∧
    context.truncated = some contextSection.truncated
  exactContext : ∀ tokensUsed text, .contextCompleted tokensUsed text ∈ events →
    context.exactContext = text
  answer : ∀ (modelId : String) (inputTokens outputTokens elapsedMs : ℕ) (response : Option String),
    .llmRequestCompleted modelId inputTokens outputTokens elapsedMs response ∈ events →
      answer.model = some modelId ∧ answer.inputTokens = some (inputTokens : ℤ) ∧
        answer.outputTokens = some (outputTokens : ℤ) ∧ answer.rawResponse = response

/-- The timeline has the three steps of the run and leaves none of its stages in the diagnostics. -/
structure ReadsBack (session : BasicQueryExplainability) (query : String)
    (records : List BasicRecord) (timeline : BasicSemanticTimelineModel) : Prop where
  steps : ∃ retrievalRaw retrieval contextRaw context answerRaw answer,
    timeline.steps = [.textRetrieval retrievalRaw retrieval,
      .basicContextAssembly contextRaw context, .basicAnswerGeneration answerRaw answer] ∧
    Reading query (records.map (·.event)) retrieval context answer
  diagnostics : ∀ envelope ∈ timeline.diagnosticEvents, envelope.record.spanId ∉
    [session.embedding, session.retrieval, session.context, session.llm].map (·.asStr)

/-! ### Envelopes -/

/-- What an envelope says beside its run, its time and its sequence. -/
def wireEntry (entry : Query.Basic.Entry) : String × Option String × Value :=
  (entry.1.asStr, entry.2.1.map (·.asStr), eventValue entry.2.2)

def envelopeEntry (envelope : ExplainabilityEnvelope) : String × Option String × Value :=
  (envelope.record.spanId, envelope.record.parentSpanId, envelope.record.event)

theorem map_envelopeEntry {timestampText : DateTime → String}
    {envelopes : List ExplainabilityEnvelope} {records : List BasicRecord}
    {entries : List Query.Basic.Entry}
    (h : envelopes.map (·.record) = records.map (wireRecord timestampText))
    (hentries : records.map entry = entries) :
    envelopes.map envelopeEntry = entries.map wireEntry := by
  have hcompose := congrArg
    (List.map fun record : ExplainabilityRecord =>
      (record.spanId, record.parentSpanId, record.event)) h
  rw [List.map_map, List.map_map] at hcompose
  rw [← hentries, List.map_map]
  exact hcompose

section Entries

variable {trace : BasicTrace} {session : BasicQueryExplainability} {query : String}

/-- An entry whose event carries numbers is one of a stage. -/
theorem stage_of_not_safe {e : Query.Basic.Entry} (he : e ∈ trace.entries session query)
    (hlarge : ¬Safe e.2.2) :
    e.1 ∈ [session.embedding, session.retrieval, session.context, session.llm] ∧
      ∀ total sections, e.2.2 = .contextBudgetAllocated total sections →
        ∃ budget, sections = [budget] := by
  have hnone : ∀ {event}, figures event = [] → Safe event := by
    intro event hfigures n hn
    rw [hfigures] at hn
    cases hn
  unfold BasicTrace.entries BasicTrace.queryEntries BasicTrace.startEntries
    BasicTrace.answerEntries Query.Basic.contextEntries Query.Basic.retrievalEntries at he
  split at he
  all_goals
    simp only [List.cons_append, List.nil_append, List.mem_cons, List.not_mem_nil, or_false] at he
    rcases he with rfl | rfl | rfl | rfl | rfl | rfl | rfl | rfl | rfl | rfl | rfl | rfl
    all_goals first
      | exact absurd (hnone rfl) hlarge
      | simp

theorem filtered_mem_entries : (session.retrieval, some session.rootSpan,
    .candidatesFiltered .textUnit trace.decisions) ∈ trace.entries session query := by
  simp [BasicTrace.entries, BasicTrace.queryEntries, Query.Basic.contextEntries]

/-- After an empty query no candidates were retrieved. -/
theorem type_ne_of_empty {e : Query.Basic.Entry} (he : e ∈ trace.entries session "") :
    eventType (eventValue e.2.2) ≠ some "candidates_retrieved" := by
  rw [eventType_eventValue]
  unfold BasicTrace.entries BasicTrace.queryEntries BasicTrace.startEntries
    BasicTrace.answerEntries Query.Basic.contextEntries Query.Basic.retrievalEntries at he
  simp only [if_true, List.cons_append, List.nil_append, List.mem_cons, List.not_mem_nil,
    or_false] at he
  rcases he with rfl | rfl | rfl | rfl | rfl | rfl | rfl | rfl | rfl | rfl
  all_goals simp [eventFields]

end Entries

/-- Of what is shown, only the decisions have their type. -/
theorem filtered_of_shown {lifecycles : BasicLifecycles} {raw : ExplainabilityEnvelope}
    (h : raw ∈ lifecycles.shown)
    (htype : eventType raw.record.event = some "candidates_filtered") :
    ∃ x, lifecycles.retrieval.filtered = some x := by
  rw [BasicLifecycles.mem_shown] at h
  simp only [PairLifecycle.rawEvents, List.mem_append, Option.mem_toList, Option.map_eq_some_iff,
    or_assoc] at h
  obtain ⟨x, hx, rfl⟩ | ⟨x, hx, rfl⟩ | ⟨x, hx, rfl⟩ | ⟨x, hx, rfl⟩ | ⟨x, hx, rfl⟩ | ⟨x, hx, rfl⟩ |
    ⟨x, hx, rfl⟩ | ⟨x, hx, rfl⟩ | ⟨x, hx, rfl⟩ | ⟨x, hx, rfl⟩ := h
  all_goals first
    | exact ⟨x, hx⟩
    | have hother := TypeGuard.type_of_accepts x.typed
      rw [htype, Option.some_inj] at hother
      simp [guard_types] at hother

section Run

variable {trace : BasicTrace} {session : BasicQueryExplainability} {query : String}
  {records : List BasicRecord} {envelopes : List ExplainabilityEnvelope}
  {dateParse : String → Option ℚ}

/-- A timeline that reads back a run is of a query that was not empty, and of safe numbers. -/
theorem of_readsBack
    (hentries : envelopes.map envelopeEntry = (trace.entries session query).map wireEntry)
    (hincrease : SequencesIncrease envelopes)
    (h : ReadsBack session query records (buildBasicSemanticTimeline dateParse envelopes)) :
    query ≠ "" ∧ ∀ e ∈ trace.entries session query, Safe e.2.2 := by
  obtain ⟨root, hroot⟩ : ∃ root, envelopes.find? isRoot = some root := by
    rw [← Option.isSome_iff_exists, ← Option.not_isNone, Bool.not_eq_true', Bool.eq_false_iff]
    intro hnone
    obtain ⟨_, _, _, _, _, _, hsteps, -⟩ := h.steps
    unfold buildBasicSemanticTimeline at hsteps
    dsimp only at hsteps
    rw [sortBy_sequence_eq hincrease, Option.isNone_iff_eq_none.mp hnone] at hsteps
    cases hsteps
  have hshown : ∀ e ∈ trace.entries session query,
      e.1 ∈ [session.embedding, session.retrieval, session.context, session.llm] →
        ∃ raw ∈ (basicLifecycles (eventsUnder envelopes root)).shown,
          raw.record.event = eventValue e.2.2 := by
    intro e he hstage
    obtain ⟨raw, hraw, hsame⟩ := List.mem_map.mp (hentries ▸ List.mem_map_of_mem he)
    obtain ⟨hspan, hsame⟩ := Prod.mk.inj hsame
    refine ⟨raw, ?_, (Prod.mk.inj hsame).2⟩
    by_contra hnot
    refine h.diagnostics raw ((mem_diagnosticEvents hincrease hroot).mpr ⟨hraw, hnot⟩) ?_
    rw [hspan]
    exact List.mem_map_of_mem hstage
  constructor
  · rintro rfl
    obtain ⟨raw, hraw, hevent⟩ := hshown _ filtered_mem_entries (by simp)
    obtain ⟨x, hx⟩ := filtered_of_shown hraw (by rw [hevent]; rfl)
    obtain ⟨y, hy⟩ := retrieved_of_filtered hx
    have hshownRetrieved : y.envelope ∈ (basicLifecycles (eventsUnder envelopes root)).shown :=
      BasicLifecycles.mem_shown.mpr (Or.inr (Or.inl ⟨y, hy, rfl⟩))
    have hmem : y.envelope ∈ envelopes :=
      (List.mem_filter.mp (BasicLifecycles.mem_of_shown hshownRetrieved)).1
    obtain ⟨e, he, hsame⟩ := List.mem_map.mp (hentries ▸ List.mem_map_of_mem hmem)
    have hevent : eventValue e.2.2 = y.envelope.record.event :=
      (Prod.mk.inj (Prod.mk.inj hsame).2).2
    refine type_ne_of_empty he ?_
    rw [hevent]
    exact TypeGuard.type_of_accepts y.typed
  · intro e he
    by_contra hlarge
    have hstage := stage_of_not_safe he hlarge
    obtain ⟨raw, hraw, hevent⟩ := hshown e he hstage.1
    refine hlarge (safe_of_accepted hstage.2 ?_)
    rw [← hevent]
    exact accepted_of_shown hraw

/-- Decisions that agree with a section are recognised as those of the section. -/
theorem matchesContextSection_of_agrees {decisions : List Query.Basic.ExplainabilityCandidate}
    {contextSection : Query.Basic.ExplainabilityContextSection}
    (h : Query.Basic.Agrees decisions contextSection) :
    matchesContextSection (decisions.map shownCandidate) (shownSection contextSection) = true := by
  have hids : ((decisions.map shownCandidate).filter (·.selected)).map (·.id) =
      contextSection.selectedRecordIds := by
    rw [← h.selectedRecordIds, List.filter_map, List.map_map]
    rfl
  unfold matchesContextSection
  dsimp only
  rw [hids]
  simp only [shownSection, List.length_map, h.candidateCount, h.selectedCount, decide_true,
    Bool.true_and]
  rw [List.all_eq_true]
  rintro ⟨id, index⟩ hmem
  rw [decide_eq_true_eq]
  exact List.mk_mem_zipIdx_iff_getElem?.mp hmem

/-- The events of a run are those of a trace. -/
structure Shows {events : List ExplainabilityEnvelope} (run : RunEvents events)
    (session : BasicQueryExplainability) (trace : BasicTrace) : Prop where
  embeddingCompleted : run.embeddingCompleted.event =
    ⟨trace.embeddingModelId, trace.promptTokens, trace.dimensions⟩
  retrieved : run.retrieved.event = ⟨"text_unit", trace.candidates.map shownCandidate⟩
  filtered : run.filtered.event = ⟨"text_unit", trace.decisions.map shownCandidate⟩
  contextSection : run.contextSection.event = ⟨shownSection trace.contextSection⟩
  completed : run.completed.event =
    ⟨trace.contextSection.tokensUsed, session.content trace.contextText⟩
  llmCompleted : run.llmCompleted.event = ⟨trace.completionModelId, trace.inputTokens,
    trace.outputTokens, trace.elapsedMs, trace.response⟩

/-- The events below the root of a query that was not empty, with safe numbers. -/
theorem exists_runEvents
    (hentries : envelopes.map envelopeEntry = (trace.entries session query).map wireEntry)
    (hincrease : SequencesIncrease envelopes)
    (hsequences : ∀ envelope ∈ envelopes, minSafeInteger ≤ envelope.sequence ∧
      envelope.sequence ≤ maxSafeInteger)
    (hquery : query ≠ "") (hsafe : ∀ e ∈ trace.entries session query, Safe e.2.2) :
    ∃ root, envelopes.find? isRoot = some root ∧
      (∃ run : RunEvents (eventsUnder envelopes root), Shows run session trace) ∧
      ∀ envelope ∈ envelopes, envelope ∈ eventsUnder envelopes root ∨
        envelope.record.spanId = session.rootSpan.asStr := by
  unfold BasicTrace.entries BasicTrace.queryEntries BasicTrace.startEntries
    BasicTrace.answerEntries Query.Basic.contextEntries Query.Basic.retrievalEntries
    at hentries hsafe
  rw [if_neg hquery] at hentries hsafe
  simp only [List.cons_append, List.nil_append, List.map_cons, List.map_nil, List.map_eq_cons_iff,
    List.map_eq_nil_iff] at hentries
  obtain ⟨started, _, rfl, hstarted, root, _, rfl, hroot, e₁, _, rfl, h₁, e₂, _, rfl, h₂, e₃, _,
    rfl, h₃, e₄, _, rfl, h₄, e₅, _, rfl, h₅, e₆, _, rfl, h₆, e₇, _, rfl, h₇, e₈, _, rfl, h₈, e₉, _,
    rfl, h₉, terminal, _, rfl, hterminal, rfl⟩ := hentries
  simp only [envelopeEntry, wireEntry, Prod.mk.injEq, Option.map_some, Option.map_none]
    at hstarted hroot h₁ h₂ h₃ h₄ h₅ h₆ h₇ h₈ h₉ hterminal
  simp only [List.cons_append, List.nil_append, List.mem_cons, List.not_mem_nil, or_false,
    forall_eq_or_imp, forall_eq] at hsafe
  obtain ⟨-, -, -, hsafe₂, -, hsafe₄, -, hsafe₆, hsafe₇, hsafe₈, hsafe₉, -⟩ := hsafe
  have hunder : eventsUnder [started, root, e₁, e₂, e₃, e₄, e₅, e₆, e₇, e₈, e₉, terminal] root =
      [e₁, e₂, e₃, e₄, e₅, e₆, e₇, e₈, e₉] := by
    refine @eventsUnder_eq [started] [e₁, e₂, e₃, e₄, e₅, e₆, e₇, e₈, e₉] root terminal hincrease
      ?_ ⟨?_, hterminal.2.1, ?_⟩
    · simp [hroot.1, h₁.2.1, h₂.2.1, h₃.2.1, h₄.2.1, h₅.2.1, h₆.2.1, h₇.2.1, h₈.2.1, h₉.2.1]
    · rw [hterminal.1, hroot.1]
    · rw [hterminal.2.2]
      rfl
  have hfirst : isRoot started = false := by
    simp [isRoot, hstarted.2.2, eventType_eventValue, eventFields]
  have hsecond : isRoot root = true := by
    simp [isRoot, hroot.2.1, hroot.2.2, eventType_eventValue, eventFields, get_eventValue,
      Value.string?, queryMethod]
  have hmem : ∀ envelope ∈ [e₁, e₂, e₃, e₄, e₅, e₆, e₇, e₈, e₉], envelope ∈
      [started, root, e₁, e₂, e₃, e₄, e₅, e₆, e₇, e₈, e₉, terminal] := by
    intro envelope henvelope
    rw [← hunder] at henvelope
    exact (List.mem_filter.mp henvelope).1
  refine ⟨root, ?_, ?_, ?_⟩
  · rw [List.find?_cons_of_neg (by simp [hfirst]), List.find?_cons_of_pos hsecond]
  · rw [hunder]
    refine ⟨
      { embeddingStarted := ⟨e₁, _, by rw [h₁.2.2]; exact accepts_embeddingStarted⟩
        embeddingCompleted :=
          ⟨e₂, _, by rw [h₂.2.2, accepts_embeddingCompleted]; exact if_pos hsafe₂⟩
        retrieved :=
          ⟨e₃, _, by rw [h₃.2.2]; exact accepts_candidatesRetrieved trace.candidates_valid⟩
        budget := ⟨e₄, _, by rw [h₄.2.2, accepts_contextBudgetAllocated]; exact if_pos hsafe₄⟩
        filtered :=
          ⟨e₅, _, by rw [h₅.2.2]; exact accepts_candidatesFiltered trace.decisions_valid⟩
        contextSection :=
          ⟨e₆, _, by rw [h₆.2.2, accepts_contextSectionBuilt]; exact if_pos hsafe₆⟩
        completed := ⟨e₇, _, by rw [h₇.2.2, accepts_contextCompleted]; exact if_pos hsafe₇⟩
        llmStarted := ⟨e₈, _, by rw [h₈.2.2, accepts_llmRequestStarted]; exact if_pos hsafe₈⟩
        llmCompleted := ⟨e₉, _, by rw [h₉.2.2, accepts_llmRequestCompleted]; exact if_pos hsafe₉⟩
        events_eq := rfl
        increase := hunder ▸ hincrease.sublist List.filter_sublist
        safe := fun envelope henvelope => hsequences envelope (hmem envelope henvelope)
        embeddingSpan := h₁.1.trans h₂.1.symm
        retrievalSpan := h₃.1.trans h₅.1.symm
        budgetSpan := h₄.1.trans h₆.1.symm
        contextSpan := h₆.1.trans h₇.1.symm
        llmSpan := h₈.1.trans h₉.1.symm
        retrievedType := rfl
        filteredType := rfl
        sources := congrArg contextSectionKind trace.agrees.kind
        agrees := matchesContextSection_of_agrees trace.agrees }, ?_⟩
    exact ⟨rfl, rfl, rfl, rfl, rfl, rfl⟩
  · intro envelope henvelope
    rw [hunder]
    have hsplit : envelope = started ∨ envelope = root ∨
        envelope ∈ [e₁, e₂, e₃, e₄, e₅, e₆, e₇, e₈, e₉] ++ [terminal] := by
      simpa only [List.mem_cons, List.cons_append, List.nil_append] using henvelope
    rw [List.mem_append, List.mem_singleton] at hsplit
    obtain rfl | rfl | hstage | rfl := hsplit
    · exact Or.inr hstarted.1
    · exact Or.inr hroot.1
    · exact Or.inl hstage
    · exact Or.inr hterminal.1

/-- The summaries of the events of a trace show what the trace says. -/
theorem reading_of {events : List ExplainabilityEnvelope} {run : RunEvents events}
    (hshows : Shows run session trace) (hquery : query ≠ "") :
    Reading query ((trace.entries session query).map (·.2.2))
      (run.lifecycles.retrievalSummary dateParse) run.lifecycles.contextSummary
      run.lifecycles.answerSummary := by
  have hlist : (trace.entries session query).map (·.2.2) =
      [.runStarted .query session.contentMode, .queryStarted .basic (session.content query),
        .embeddingStarted trace.embeddingModelId (session.content query),
        .embeddingCompleted trace.embeddingModelId trace.promptTokens trace.dimensions,
        .candidatesRetrieved .textUnit trace.candidates,
        .contextBudgetAllocated trace.contextSection.tokenBudget
          [(.sources, trace.contextSection.tokenBudget)],
        .candidatesFiltered .textUnit trace.decisions, .contextSectionBuilt trace.contextSection,
        .contextCompleted trace.contextSection.tokensUsed (session.content trace.contextText),
        .llmRequestStarted trace.completionModelId trace.requestTokens trace.prompt,
        .llmRequestCompleted trace.completionModelId trace.inputTokens trace.outputTokens
          trace.elapsedMs trace.response,
        .runCompleted session.runElapsed] := by
    unfold BasicTrace.entries BasicTrace.queryEntries Query.Basic.retrievalEntries
    rw [if_neg hquery]
    rfl
  rw [hlist]
  constructor
  · rw [if_neg hquery]
    rfl
  · rfl
  · rfl
  · show run.retrieved.event.candidates = _
    rw [hshows.retrieved]
    simp [retrievedOf]
  · show run.filtered.event.candidates = _
    rw [hshows.filtered]
    simp [filteredOf]
  · intro modelId promptTokens dimensions hevent
    show some run.embeddingCompleted.event.modelId = _ ∧
      some run.embeddingCompleted.event.promptTokens = _ ∧
      some run.embeddingCompleted.event.dimensions = _
    rw [hshows.embeddingCompleted]
    simp at hevent
    simp [hevent]
  · refine ⟨trace.contextSection, by simp, ?_⟩
    show run.contextSection.event.contextSection.selectedRecordIds = _ ∧
      some run.contextSection.event.contextSection.candidateCount = _ ∧
      some run.contextSection.event.contextSection.selectedCount = _ ∧
      some run.contextSection.event.contextSection.tokenBudget = _ ∧
      some run.contextSection.event.contextSection.tokensUsed = _ ∧
      some run.contextSection.event.contextSection.truncated = _
    rw [hshows.contextSection]
    exact ⟨rfl, rfl, rfl, rfl, rfl, rfl⟩
  · intro tokensUsed text hevent
    show run.completed.event.context = _
    rw [hshows.completed]
    simp at hevent
    simp [hevent]
  · intro modelId inputTokens outputTokens elapsedMs response hevent
    show some run.llmCompleted.event.modelId = _ ∧ some run.llmCompleted.event.inputTokens = _ ∧
      some run.llmCompleted.event.outputTokens = _ ∧ run.llmCompleted.event.response = _
    rw [hshows.llmCompleted]
    simp at hevent
    simp [hevent]

/-- A query that was not empty, with safe numbers, is read back. -/
theorem readsBack_of
    (hentries : envelopes.map envelopeEntry = (trace.entries session query).map wireEntry)
    (hevents : records.map (·.event) = (trace.entries session query).map (·.2.2))
    (hincrease : SequencesIncrease envelopes)
    (hsequences : ∀ envelope ∈ envelopes, minSafeInteger ≤ envelope.sequence ∧
      envelope.sequence ≤ maxSafeInteger)
    (hquery : query ≠ "") (hsafe : ∀ e ∈ trace.entries session query, Safe e.2.2) :
    ReadsBack session query records (buildBasicSemanticTimeline dateParse envelopes) := by
  obtain ⟨root, hroot, ⟨run, hshows⟩, hall⟩ :=
    exists_runEvents hentries hincrease hsequences hquery hsafe
  have hsteps := @steps_eq _ root dateParse hincrease hroot
  rw [run.basicLifecycles_eq] at hsteps
  constructor
  · refine ⟨_, _, _, _, _, _, hsteps, ?_⟩
    rw [hevents]
    exact reading_of hshows hquery
  · intro envelope henvelope hspan
    rw [mem_diagnosticEvents hincrease hroot, run.basicLifecycles_eq] at henvelope
    have hrootSpan : envelope.record.spanId = session.rootSpan.asStr :=
      (hall envelope henvelope.1).resolve_left fun hunder => henvelope.2 (run.mem_shown hunder)
    obtain ⟨span, hmem, hsame⟩ := List.mem_map.mp hspan
    rw [hrootSpan, Identifier.asStr_inj] at hsame
    exact (List.nodup_cons.mp session.fresh).1 (hsame ▸ hmem)

end Run

/-! ### The timeline -/

/-- Every list of ordered envelopes is partitioned.  The timeline of a completed query reads back
what the query did if and only if the query was not empty and no number in its events is too large.
The store numbers the records of a run from one on. -/
theorem buildBasicSemanticTimeline_reading (dateParse : String → Option ℚ)
    (timestampText : DateTime → String) :
    (∀ envelopes, SequencesIncrease envelopes →
      ((buildBasicSemanticTimeline dateParse envelopes).steps.flatMap (·.rawEvents) ++
        (buildBasicSemanticTimeline dateParse envelopes).diagnosticEvents).Perm envelopes) ∧
    ∀ (runtime : BasicQueryRuntime) (query responseType : String)
      (session : BasicQueryExplainability) (result : Query.Basic.QueryResult)
      (s : Query.Basic.Session) (envelopes : List ExplainabilityEnvelope),
      runtime.run query responseType session = (.ok result, s) → s.deliveryFailureCount = 0 →
      envelopes.map (·.record) = s.records.map (wireRecord timestampText) →
      SequencesIncrease envelopes →
      (∀ envelope ∈ envelopes, minSafeInteger ≤ envelope.sequence ∧
        envelope.sequence ≤ maxSafeInteger) →
      (ReadsBack session query s.records (buildBasicSemanticTimeline dateParse envelopes) ↔
        query ≠ "" ∧ ∀ record ∈ s.records, Safe record.event) := by
  constructor
  · exact buildBasicSemanticTimeline_perm dateParse
  · intro runtime query responseType session result s envelopes hrun hdelivered hrecords hincrease
      hsequences
    obtain ⟨trace, hentries⟩ := Query.Basic.run_entries hrun hdelivered
    have henvelopes := map_envelopeEntry hrecords hentries
    have hsafe : (∀ record ∈ s.records, Safe record.event) ↔
        ∀ e ∈ trace.entries session query, Safe e.2.2 := by
      rw [← hentries, List.forall_mem_map]
      rfl
    have hevents : s.records.map (·.event) = (trace.entries session query).map (·.2.2) := by
      rw [← hentries, List.map_map]
      rfl
    rw [hsafe]
    constructor
    · exact of_readsBack henvelopes hincrease
    · rintro ⟨hquery, hall⟩
      exact readsBack_of henvelopes hevents hincrease hsequences hquery hall

/-- Two text units that the index finds for every query, one of which fits, and a model that says
yes. -/
def sampleRuntime : BasicQueryRuntime where
  basicContext :=
    { textUnits := [⟨"u1", "0", "Ada", []⟩, ⟨"u2", "1", "Bob", []⟩]
      k := 10
      maxContextTokens := 2
      embeddingModelId := "embed"
      embed := fun _ => .ok ⟨2, [[⟨0⟩]]⟩
      indexName := "text_unit_text"
      similaritySearchByVector := fun _ _ => .ok [⟨"u1", ⟨0⟩⟩, ⟨"u2", ⟨0⟩⟩]
      tokenizer := ⟨fun _ => .ok 1, fun _ _ h => Except.ok.inj h ▸ by decide⟩
      csv := fun rows => .ok (String.join (rows.map Query.delimitedRecord)) }
  completionModelId := "chat"
  callArgs := []
  asF64 := fun _ => ⟨0⟩
  renderPrompt := fun contextData _ => .ok contextData
  stream := fun _ => .ok [.ok (some "yes")]
  elapsed := 5

def sampleSession : BasicQueryExplainability where
  runId := ⟨"run", by decide⟩
  contentMode := .content
  sink := fun _ _ => true
  rootSpan := ⟨"root", by decide⟩
  embedding := ⟨"embedding", by decide⟩
  retrieval := ⟨"retrieval", by decide⟩
  context := ⟨"context", by decide⟩
  llm := ⟨"llm", by decide⟩
  fresh := by decide
  now := fun _ => ⟨2025, 1, 1, 0, 0, 0, 0, by decide⟩
  runElapsed := 5
  llmElapsed := 3

/-- The envelopes of records, numbered from one. -/
def sampleEnvelopes (records : List BasicRecord) : List ExplainabilityEnvelope :=
  records.zipIdx.map fun (record, index) => ⟨1, index + 1, wireRecord (fun _ => "") record⟩

theorem sampleEnvelopes_records (records : List BasicRecord) :
    (sampleEnvelopes records).map (·.record) = records.map (wireRecord fun _ => "") := by
  unfold sampleEnvelopes
  rw [List.map_map]
  calc _ = (records.zipIdx.map Prod.fst).map (wireRecord fun _ => "") := (List.map_map ..).symm
    _ = _ := by rw [List.zipIdx_map_fst]

theorem sampleEnvelopes_increase (records : List BasicRecord) :
    SequencesIncrease (sampleEnvelopes records) := by
  unfold sampleEnvelopes SequencesIncrease
  rw [List.pairwise_map, List.pairwise_iff_getElem]
  intro i j hi hj hij
  rw [List.getElem_zipIdx, List.getElem_zipIdx]
  have hcast : (i : ℚ) < j := by exact_mod_cast hij
  show ((0 + i : ℕ) : ℚ) + 1 < ((0 + j : ℕ) : ℚ) + 1
  simpa using hcast

theorem sampleEnvelopes_safe {records : List BasicRecord} (h : records.length ≤ 12) :
    ∀ envelope ∈ sampleEnvelopes records, minSafeInteger ≤ envelope.sequence ∧
      envelope.sequence ≤ maxSafeInteger := by
  intro envelope henvelope
  obtain ⟨⟨record, index⟩, hmem, rfl⟩ := List.mem_map.mp henvelope
  have hlt := List.snd_lt_of_mem_zipIdx hmem
  have hle : ((index + 1 : ℕ) : ℚ) ≤ (12 : ℕ) := by
    exact_mod_cast (by omega : index + 1 ≤ 12)
  have hnonneg : (0 : ℚ) ≤ ((index + 1 : ℕ) : ℚ) := Nat.cast_nonneg _
  show (minSafeInteger : ℚ) ≤ (index : ℚ) + 1 ∧ (index : ℚ) + 1 ≤ (maxSafeInteger : ℚ)
  push_cast at hle hnonneg
  constructor
  · exact le_trans (by decide +kernel) hnonneg
  · exact le_trans hle (by decide +kernel)

theorem buildBasicSemanticTimeline_reading_sample :
    ∃ result s, sampleRuntime.run "question" "text" sampleSession = (.ok result, s) ∧
      s.records.length = 12 ∧
      .contextSectionBuilt ⟨.sources, 2, 2, 2, 1, true, ["u1"]⟩ ∈ s.records.map (·.event) ∧
      ReadsBack sampleSession "question" s.records
        (buildBasicSemanticTimeline (fun _ => none) (sampleEnvelopes s.records)) := by
  refine ⟨_, _, rfl, rfl, by decide +kernel, ?_⟩
  refine ((buildBasicSemanticTimeline_reading (fun _ => none) fun _ => "").2 sampleRuntime
    "question" "text" sampleSession _ _ _ rfl rfl (sampleEnvelopes_records _)
    (sampleEnvelopes_increase _) (sampleEnvelopes_safe (by decide))).mpr ⟨by decide, ?_⟩
  decide +kernel

/-- After an empty query the decisions stay in the diagnostics. -/
theorem buildBasicSemanticTimeline_reading_empty :
    ∃ result s, sampleRuntime.run "" "text" sampleSession = (.ok result, s) ∧
      s.deliveryFailureCount = 0 ∧
      ¬ReadsBack sampleSession "" s.records
        (buildBasicSemanticTimeline (fun _ => none) (sampleEnvelopes s.records)) := by
  refine ⟨_, _, rfl, rfl, ?_⟩
  intro h
  obtain ⟨trace, hentries⟩ := @Query.Basic.run_entries sampleRuntime sampleSession _ "" "text" _
    rfl rfl
  have henvelopes := map_envelopeEntry (sampleEnvelopes_records _) hentries
  exact (of_readsBack henvelopes (sampleEnvelopes_increase _) h).1 rfl

end GraphLoom.Studio.BasicWire
