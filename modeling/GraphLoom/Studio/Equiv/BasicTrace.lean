import GraphLoom.Studio.Equiv.SemanticBasic

/-!
# The lifecycles of one run

Where the events of a run have nine different types and the order of a query that was not empty,
each lifecycle is made of its own events (`basicLifecycles_eq`).
-/

namespace GraphLoom.Studio.SemanticBasic

open Foundation TypeGuard

/-! ### Events of different types -/

variable {envelope : ExplainabilityEnvelope}

section Typed

variable {α : Type} {guard : TypeGuard α} {events : List ExplainabilityEnvelope}

theorem typedEnvelope_eq_none (h : eventType envelope.record.event ≠ some guard.type) :
    typedEnvelope guard envelope = none := by
  rw [Option.eq_none_iff_forall_ne_some]
  intro x hx
  have hx := typedEnvelope_eq_some_iff.mp hx
  exact h (hx ▸ type_of_accepts x.typed)

theorem typedEnvelopes_eq_nil
    (h : ∀ envelope ∈ events, eventType envelope.record.event ≠ some guard.type) :
    typedEnvelopes guard events = [] := by
  unfold typedEnvelopes
  rw [List.filterMap_eq_nil_iff]
  intro envelope henvelope
  exact typedEnvelope_eq_none (h envelope henvelope)

/-- Among events of different types a guard accepts one at most. -/
theorem typedEnvelopes_eq_singleton
    (hnodup : (events.map fun envelope => eventType envelope.record.event).Nodup)
    {x : TypedEnvelope guard} (hx : x.envelope ∈ events) : typedEnvelopes guard events = [x] := by
  induction events with
  | nil => cases hx
  | cons envelope events ih =>
    rw [List.map_cons, List.nodup_cons] at hnodup
    have htype := type_of_accepts x.typed
    show (envelope :: events).filterMap (typedEnvelope guard) = [x]
    by_cases heq : x.envelope = envelope
    · have hrest : typedEnvelopes guard events = [] := by
        refine typedEnvelopes_eq_nil fun other hother hsame => hnodup.1 ?_
        rw [← heq, htype, ← hsame]
        exact List.mem_map_of_mem hother
      rw [List.filterMap_cons_some (typedEnvelope_eq_some_iff.mpr heq)]
      exact congrArg (x :: ·) hrest
    · have hmem : x.envelope ∈ events := (List.mem_cons.mp hx).resolve_left heq
      have hnone : typedEnvelope guard envelope = none := by
        refine typedEnvelope_eq_none fun hsame => hnodup.1 ?_
        rw [hsame, ← htype]
        exact List.mem_map_of_mem (f := fun e : ExplainabilityEnvelope => eventType e.record.event)
          hmem
      rw [List.filterMap_cons_none hnone]
      exact ih hnodup.2 hmem

end Typed

/-! ### The events of a run -/

/-- The events of a query that was not empty: they have different types, follow one another, and
those of a stage share their span; the decisions agree with the section. -/
structure RunEvents (events : List ExplainabilityEnvelope) where
  embeddingStarted : TypedEnvelope isEmbeddingStarted
  embeddingCompleted : TypedEnvelope isEmbeddingCompleted
  retrieved : TypedEnvelope isCandidatesRetrieved
  budget : TypedEnvelope isContextBudgetAllocated
  filtered : TypedEnvelope isCandidatesFiltered
  contextSection : TypedEnvelope isContextSectionBuilt
  completed : TypedEnvelope isContextCompleted
  llmStarted : TypedEnvelope isLlmRequestStarted
  llmCompleted : TypedEnvelope isLlmRequestCompleted
  events_eq : events = [embeddingStarted.envelope, embeddingCompleted.envelope, retrieved.envelope,
    budget.envelope, filtered.envelope, contextSection.envelope, completed.envelope,
    llmStarted.envelope, llmCompleted.envelope]
  increase : SequencesIncrease events
  safe : ∀ envelope ∈ events, Js.minSafeInteger ≤ envelope.sequence ∧
    envelope.sequence ≤ Js.maxSafeInteger
  embeddingSpan : embeddingStarted.spanId = embeddingCompleted.spanId
  retrievalSpan : retrieved.spanId = filtered.spanId
  budgetSpan : budget.spanId = contextSection.spanId
  contextSpan : contextSection.spanId = completed.spanId
  llmSpan : llmStarted.spanId = llmCompleted.spanId
  retrievedType : retrieved.event.recordType = "text_unit"
  filteredType : filtered.event.recordType = "text_unit"
  sources : contextSection.event.contextSection.sectionName = "sources"
  agrees : matchesContextSection filtered.event.candidates
    contextSection.event.contextSection = true

namespace RunEvents

variable {events : List ExplainabilityEnvelope} (run : RunEvents events)

def lifecycles : BasicLifecycles where
  embedding := { started := some run.embeddingStarted, completed := some run.embeddingCompleted }
  retrieval := { retrieved := some run.retrieved, filtered := some run.filtered }
  context :=
    { budget := some run.budget
      contextSection := some run.contextSection
      completed := some run.completed }
  llm := { started := some run.llmStarted, completed := some run.llmCompleted }

theorem types (run : RunEvents events) :
    events.map (fun envelope => eventType envelope.record.event) =
      ["embedding_started", "embedding_completed", "candidates_retrieved",
        "context_budget_allocated", "candidates_filtered", "context_section_built",
        "context_completed", "llm_request_started", "llm_request_completed"].map some := by
  rw [run.events_eq]
  simp only [List.map_cons, List.map_nil, type_of_accepts run.embeddingStarted.typed,
    type_of_accepts run.embeddingCompleted.typed,
    type_of_accepts run.retrieved.typed, type_of_accepts run.budget.typed,
    type_of_accepts run.filtered.typed,
    type_of_accepts run.contextSection.typed,
    type_of_accepts run.completed.typed, type_of_accepts run.llmStarted.typed,
    type_of_accepts run.llmCompleted.typed]
  rfl

theorem nodup (run : RunEvents events) :
    (events.map fun envelope => eventType envelope.record.event).Nodup := by
  rw [run.types]
  decide

theorem skipped_eq_nil (run : RunEvents events) :
    typedEnvelopes isBasicRetrievalSkipped events = [] := by
  refine typedEnvelopes_eq_nil ?_
  intro envelope henvelope htype
  have hmem := List.mem_map_of_mem
    (f := fun e : ExplainabilityEnvelope => eventType e.record.event) henvelope
  rw [run.types, htype] at hmem
  exact absurd hmem (by decide)

theorem mem (h : envelope ∈ [run.embeddingStarted.envelope, run.embeddingCompleted.envelope,
      run.retrieved.envelope, run.budget.envelope, run.filtered.envelope,
      run.contextSection.envelope, run.completed.envelope, run.llmStarted.envelope,
      run.llmCompleted.envelope]) : envelope ∈ events :=
  (congrArg (envelope ∈ ·) run.events_eq).mpr h

/-- The order of the events. -/
theorem order :
    run.embeddingStarted.sequence < run.embeddingCompleted.sequence ∧
      run.embeddingCompleted.sequence < run.retrieved.sequence ∧
      run.retrieved.sequence < run.budget.sequence ∧
      run.budget.sequence < run.filtered.sequence ∧
      run.filtered.sequence < run.contextSection.sequence ∧
      run.contextSection.sequence < run.completed.sequence ∧
      run.completed.sequence < run.llmStarted.sequence ∧
      run.llmStarted.sequence < run.llmCompleted.sequence := by
  have hincrease := (congrArg SequencesIncrease run.events_eq).mp run.increase
  unfold SequencesIncrease at hincrease
  simp only [List.pairwise_cons, List.mem_cons, forall_eq_or_imp] at hincrease
  obtain ⟨⟨h₁, -⟩, ⟨h₂, -⟩, ⟨h₃, -⟩, ⟨h₄, -⟩, ⟨h₅, -⟩, ⟨h₆, -⟩, ⟨h₇, -⟩, ⟨h₈, -⟩, -⟩ := hincrease
  exact ⟨h₁, h₂, h₃, h₄, h₅, h₆, h₇, h₈⟩

theorem context_eq : selectContextLifecycle [run.budget] [run.contextSection] [run.completed]
    [run.filtered] [] = run.lifecycles.context := by
  obtain ⟨-, -, -, h₄, h₅, h₆, -, -⟩ := run.order
  have hcoherent : hasCoherentRetrieval run.contextSection [run.filtered] [] = true := by
    simp [hasCoherentRetrieval, h₅.le, run.agrees]
  have hbudget : budgetOf [run.budget] run.contextSection = some run.budget := by
    simp [budgetOf, last, run.budgetSpan, (h₄.trans h₅).le]
  simp [selectContextLifecycle, hcoherent, hbudget, run.contextSpan, h₆.le, lifecycles]

theorem retrieval_eq : selectRetrievalLifecycle [run.retrieved] [run.filtered] []
    run.completed.sequence (some run.contextSection.event.contextSection) =
      run.lifecycles.retrieval := by
  obtain ⟨-, -, h₃, h₄, h₅, h₆, -, -⟩ := run.order
  have hfiltered : run.filtered.sequence ≤ run.completed.sequence := (h₅.trans h₆).le
  have hretrieved : run.retrieved.sequence ≤ run.filtered.sequence := (h₃.trans h₄).le
  have hcutoff := hretrieved.trans hfiltered
  simp [selectRetrievalLifecycle, retrievalBranches, selectBranch, latestBranch, last,
    hfiltered, hretrieved, hcutoff, run.agrees, run.retrievalSpan, Js.sortBy, lifecycles]

theorem retrieval_head : run.lifecycles.retrieval.rawEvents.head? = some run.retrieved.envelope := by
  obtain ⟨-, -, h₃, h₄, -, -, -, -⟩ := run.order
  have hretrieved : run.retrieved.envelope.sequence ≤ run.filtered.envelope.sequence :=
    (h₃.trans h₄).le
  simp [RetrievalLifecycle.rawEvents, lifecycles, Js.sortBy, hretrieved]

theorem embedding_eq : selectPairLifecycle [run.embeddingStarted] [run.embeddingCompleted]
    run.retrieved.sequence none = run.lifecycles.embedding := by
  obtain ⟨h₁, h₂, -, -, -, -, -, -⟩ := run.order
  have hfloor : (Js.minSafeInteger : ℚ) ≤ run.embeddingStarted.sequence :=
    (run.safe _ (run.mem List.mem_cons_self)).1
  simp [selectPairLifecycle, last, not_lt.mpr h₂.le, run.embeddingSpan, hfloor, h₁.le, lifecycles]

theorem llm_eq : selectPairLifecycle [run.llmStarted] [run.llmCompleted]
    (Js.maxSafeInteger : ℚ) (some run.completed.sequence) = run.lifecycles.llm := by
  obtain ⟨-, -, -, -, -, -, h₇, h₈⟩ := run.order
  have hcutoff : run.llmCompleted.sequence ≤ (Js.maxSafeInteger : ℚ) :=
    (run.safe _ (run.mem (by simp))).2
  simp [selectPairLifecycle, last, not_lt.mpr hcutoff, run.llmSpan, h₇.le, h₈.le, lifecycles]

/-- Each lifecycle is found. -/
theorem basicLifecycles_eq : basicLifecycles events = run.lifecycles := by
  have hsingle : ∀ {α : Type} {guard : TypeGuard α} (x : TypedEnvelope guard),
      x.envelope ∈ events → typedEnvelopes guard events = [x] := fun x hx =>
    typedEnvelopes_eq_singleton run.nodup hx
  unfold basicLifecycles
  rw [hsingle run.embeddingStarted (run.mem (by simp)),
    hsingle run.embeddingCompleted (run.mem (by simp)), hsingle run.retrieved (run.mem (by simp)),
    hsingle run.budget (run.mem (by simp)), hsingle run.filtered (run.mem (by simp)),
    hsingle run.contextSection (run.mem (by simp)), hsingle run.completed (run.mem (by simp)),
    hsingle run.llmStarted (run.mem (by simp)), hsingle run.llmCompleted (run.mem (by simp)),
    run.skipped_eq_nil]
  have hretrieved : [run.retrieved].filter (·.event.recordType = "text_unit") = [run.retrieved] := by
    simp [run.retrievedType]
  have hfiltered : [run.filtered].filter (·.event.recordType = "text_unit") = [run.filtered] := by
    simp [run.filteredType]
  have hsections : [run.contextSection].filter
      (·.event.contextSection.sectionName = "sources") = [run.contextSection] := by
    simp [run.sources]
  dsimp only
  rw [hretrieved, hfiltered, hsections, run.context_eq]
  have hcutoff : (run.lifecycles.context.completed.map (·.sequence)).getD
      (Js.maxSafeInteger : ℚ) = run.completed.sequence := rfl
  have hsection : run.lifecycles.context.contextSection.map (·.event.contextSection) =
      some run.contextSection.event.contextSection := rfl
  have hnotSkipped : run.lifecycles.retrieval.skipped.isNone = true := rfl
  have hstart : (((some run.retrieved.envelope <|> run.lifecycles.context.rawEvents.head?).map
      (·.sequence)).getD (Js.maxSafeInteger : ℚ)) = run.retrieved.sequence := rfl
  have hfloor : run.lifecycles.context.completed.map (·.sequence) =
      some run.completed.sequence := rfl
  rw [hcutoff, hsection, run.retrieval_eq, hnotSkipped, if_pos rfl, run.retrieval_head, hstart,
    run.embedding_eq, hfloor, run.llm_eq]

theorem mem_shown (h : envelope ∈ events) : envelope ∈ run.lifecycles.shown := by
  have hlist := (congrArg (envelope ∈ ·) run.events_eq).mp h
  simp only [List.mem_cons, List.not_mem_nil, or_false] at hlist
  rw [BasicLifecycles.mem_shown]
  obtain rfl | rfl | rfl | rfl | rfl | rfl | rfl | rfl | rfl := hlist
  all_goals simp [lifecycles, PairLifecycle.rawEvents]

end RunEvents

/-! ### The events below a root -/

section Root

variable {envelopes before under : List ExplainabilityEnvelope}
  {root terminal : ExplainabilityEnvelope}

/-- The envelope is the end of the run of a root. -/
def IsTerminalOf (root envelope : ExplainabilityEnvelope) : Prop :=
  envelope.record.spanId = root.record.spanId ∧ envelope.record.parentSpanId = none ∧
    eventType envelope.record.event = some "run_completed"

theorem eventsUnder_eq (hincrease : SequencesIncrease (before ++ root :: (under ++ [terminal])))
    (hunder : ∀ envelope ∈ under, envelope.record.parentSpanId = some root.record.spanId)
    (hterminal : IsTerminalOf root terminal) :
    eventsUnder (before ++ root :: (under ++ [terminal])) root = under := by
  obtain ⟨-, hroot, hbefore⟩ := List.pairwise_append.mp hincrease
  obtain ⟨hafter, hrest⟩ := List.pairwise_cons.mp hroot
  obtain ⟨-, -, hlast⟩ := List.pairwise_append.mp hrest
  have hterminalOf : terminalOf (before ++ root :: (under ++ [terminal])) root =
      some terminal := by
    have hfirst : ∀ envelope ∈ before, ¬root.sequence < envelope.sequence := by
      intro envelope henvelope
      exact not_lt.mpr (hbefore envelope henvelope root List.mem_cons_self).le
    unfold terminalOf
    rw [List.find?_append, List.find?_eq_none.mpr, Option.none_or,
      List.find?_cons_of_neg (by simp), List.find?_append, List.find?_eq_none.mpr, Option.none_or]
    · have hlt := hafter terminal (by simp)
      simp [hlt, hterminal.1, hterminal.2.1, hterminal.2.2]
    · intro envelope henvelope
      simp [hunder envelope henvelope]
    · intro envelope henvelope
      simp [hfirst envelope henvelope]
  unfold eventsUnder
  rw [hterminalOf]
  show List.filter _ _ = under
  have hkeep : ∀ envelope ∈ under, root.sequence < envelope.sequence ∧
      envelope.sequence < terminal.sequence ∧
      envelope.record.parentSpanId = some root.record.spanId := fun envelope henvelope =>
    ⟨hafter envelope (List.mem_append_left _ henvelope),
      hlast envelope henvelope terminal (List.mem_singleton_self _), hunder envelope henvelope⟩
  rw [List.filter_append, List.filter_eq_nil_iff.mpr, List.nil_append, List.filter_cons_of_neg,
    List.filter_append, List.filter_eq_self.mpr, List.filter_eq_nil_iff.mpr, List.append_nil]
  · intro envelope henvelope
    rw [List.mem_singleton.mp henvelope]
    simp
  · intro envelope henvelope
    simpa using hkeep envelope henvelope
  · simp
  · intro envelope henvelope
    have hlt := hbefore envelope henvelope root List.mem_cons_self
    simp [not_lt.mpr hlt.le]

/-- The diagnostics are the events that are not shown. -/
theorem mem_diagnosticEvents {dateParse : String → Option ℚ} {raw : ExplainabilityEnvelope}
    (hincrease : SequencesIncrease envelopes) (hroot : envelopes.find? isRoot = some root) :
    raw ∈ (buildBasicSemanticTimeline dateParse envelopes).diagnosticEvents ↔
      raw ∈ envelopes ∧ raw ∉ (basicLifecycles (eventsUnder envelopes root)).shown := by
  unfold buildBasicSemanticTimeline
  dsimp only
  rw [sortBy_sequence_eq hincrease, hroot]
  dsimp only
  rw [List.mem_filter]
  refine and_congr_right fun hraw => ?_
  rw [Bool.not_eq_true', ← Bool.not_eq_true, List.contains_iff_mem, BasicLifecycles.mem_claimed,
    List.mem_map]
  refine not_congr ⟨?_, fun h => ⟨raw, h, rfl⟩⟩
  rintro ⟨other, hother, hsequence⟩
  have hmem := (List.mem_filter.mp (BasicLifecycles.mem_of_shown hother)).1
  exact hincrease.eq_of_sequence_eq hmem hraw hsequence ▸ hother

theorem steps_eq {dateParse : String → Option ℚ} (hincrease : SequencesIncrease envelopes)
    (hroot : envelopes.find? isRoot = some root) :
    (buildBasicSemanticTimeline dateParse envelopes).steps =
      (basicLifecycles (eventsUnder envelopes root)).steps dateParse := by
  unfold buildBasicSemanticTimeline
  dsimp only
  rw [sortBy_sequence_eq hincrease, hroot]

end Root

/-- Decisions are shown together with the candidates they are about. -/
theorem retrieved_of_filtered {events : List ExplainabilityEnvelope}
    {x : TypedEnvelope isCandidatesFiltered}
    (h : (basicLifecycles events).retrieval.filtered = some x) :
    ∃ y, (basicLifecycles events).retrieval.retrieved = some y := by
  unfold basicLifecycles at h ⊢
  dsimp only at h ⊢
  unfold selectRetrievalLifecycle at h ⊢
  dsimp only at h ⊢
  generalize hbranch : selectBranch _ _ = branch at h ⊢
  cases branch with
  | none => cases h
  | some branch =>
    have hmem := mem_of_selectBranch hbranch
    rw [retrievalBranches, List.mem_append, List.mem_append] at hmem
    obtain (hmem | hmem) | hmem := hmem
    · obtain ⟨decision, -, hdecision⟩ := List.mem_filterMap.mp hmem
      split at hdecision
      · obtain ⟨source, -, rfl⟩ := Option.map_eq_some_iff.mp hdecision
        exact ⟨source, rfl⟩
      · cases hdecision
    · obtain ⟨source, -, rfl⟩ := List.mem_map.mp hmem
      exact ⟨source, rfl⟩
    · obtain ⟨skip, -, rfl⟩ := List.mem_map.mp hmem
      cases h

end GraphLoom.Studio.SemanticBasic
