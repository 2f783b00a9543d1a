import GraphLoom.Studio.SemanticGlobal
import Mathlib.Data.List.Perm.Basic

/-!
# The Global timeline loses no evidence

Every envelope of an ordered list is shown in a step of its timeline or left for the diagnostics.
The raw events of a step are envelopes of the list in its order, each of them once as long as no two
batches and no two rating attempts share a span.  A batch that is shown as completed has been
built, asked, answered and read in one span, with no later request in between
(`buildGlobalSemanticTimeline_evidence`).
-/

namespace GraphLoom.Studio.SemanticGlobal

open Foundation InsertionMap TypedEnvelope

/-! ### Lifecycles -/

section Lifecycle

variable {starts : LlmStarts} {completions : LlmCompletions} {parentSpan : String}
  {afterSequence : ℚ}

/-- A request that was started in a span behind a sequence. -/
structure StartedIn (starts : LlmStarts) (parentSpan : String) (afterSequence : ℚ)
    (started : TypedEnvelope isLlmRequestStarted) : Prop where
  mem : started ∈ starts
  parent : started.parentSpanId = some parentSpan
  after : afterSequence < started.sequence

/-- A request that was completed in a span, with the last start before its completion. -/
structure CompletedIn (starts : LlmStarts) (completions : LlmCompletions) (parentSpan : String)
    (afterSequence : ℚ) (started : TypedEnvelope isLlmRequestStarted)
    (completed : TypedEnvelope isLlmRequestCompleted) : Prop where
  mem : completed ∈ completions
  parent : completed.parentSpanId = some parentSpan
  before : started.sequence ≤ completed.sequence
  latest : ∀ other ∈ starts, other.parentSpanId = some parentSpan →
    afterSequence < other.sequence → other.sequence ≤ completed.sequence →
    other.sequence ≤ started.sequence

theorem startedIn_of_mem_filter {started : TypedEnvelope isLlmRequestStarted}
    (h : started ∈ starts.filter fun event =>
      event.parentSpanId = some parentSpan ∧ afterSequence < event.sequence) :
    StartedIn starts parentSpan afterSequence started := by
  rw [List.mem_filter, decide_eq_true_eq] at h
  exact ⟨h.1, h.2.1, h.2.2⟩

/-- Either a completed request with its start was found, or nothing but the last start. -/
theorem selectLlmLifecycle_cases (starts : LlmStarts) (completions : LlmCompletions)
    (parentSpan : String) (afterSequence : ℚ) :
    (∃ started completed,
      selectLlmLifecycle starts completions parentSpan afterSequence =
        { started := some started, completed := some completed } ∧
      completed ∈ completions.filter (fun event =>
        event.parentSpanId = some parentSpan ∧ afterSequence < event.sequence) ∧
      last ((starts.filter fun event =>
        event.parentSpanId = some parentSpan ∧ afterSequence < event.sequence).filter
          fun event => event.sequence ≤ completed.sequence) = some started) ∨
    selectLlmLifecycle starts completions parentSpan afterSequence =
      { started := last (starts.filter fun event =>
          event.parentSpanId = some parentSpan ∧ afterSequence < event.sequence) } := by
  unfold selectLlmLifecycle
  dsimp only
  generalize hpair : List.findSome? _ _ = pair
  cases pair with
  | none => exact .inr rfl
  | some lifecycle =>
    left
    obtain ⟨completed, hmem, hlast⟩ := List.exists_of_findSome?_eq_some hpair
    obtain ⟨started, hstarted, rfl⟩ := Option.map_eq_some_iff.mp hlast
    exact ⟨started, completed, rfl, List.mem_reverse.mp hmem, hstarted⟩

theorem startedIn_of_selectLlmLifecycle {started : TypedEnvelope isLlmRequestStarted}
    (h : (selectLlmLifecycle starts completions parentSpan afterSequence).started = some started) :
    StartedIn starts parentSpan afterSequence started := by
  obtain ⟨started', completed, heq, -, hlast⟩ | heq :=
    selectLlmLifecycle_cases starts completions parentSpan afterSequence
  · rw [heq] at h
    obtain rfl : started' = started := Option.some_inj.mp h
    exact startedIn_of_mem_filter (List.mem_filter.mp (mem_of_last hlast)).1
  · rw [heq] at h
    exact startedIn_of_mem_filter (mem_of_last h)

theorem completedIn_of_selectLlmLifecycle {completed : TypedEnvelope isLlmRequestCompleted}
    (hsorted : starts.Pairwise fun a b => a.sequence < b.sequence)
    (h : (selectLlmLifecycle starts completions parentSpan afterSequence).completed =
      some completed) :
    ∃ started, (selectLlmLifecycle starts completions parentSpan afterSequence).started =
        some started ∧
      CompletedIn starts completions parentSpan afterSequence started completed := by
  obtain ⟨started, completed', heq, hmem, hlast⟩ | heq :=
    selectLlmLifecycle_cases starts completions parentSpan afterSequence
  · rw [heq] at h ⊢
    obtain rfl : completed' = completed := Option.some_inj.mp h
    rw [List.mem_filter, decide_eq_true_eq] at hmem
    obtain ⟨-, hbefore, hlatest⟩ := last_filter_spec (hsorted.filter _) hlast
    refine ⟨started, rfl, hmem.1, hmem.2.1, by simpa using hbefore, ?_⟩
    intro other hother hparent hafter hle
    refine hlatest other ?_ (by simpa using hle)
    rw [List.mem_filter, decide_eq_true_eq]
    exact ⟨hother, hparent, hafter⟩
  · rw [heq] at h
    cases h

theorem mem_completions_of_selectLlmLifecycle {completed : TypedEnvelope isLlmRequestCompleted}
    (h : (selectLlmLifecycle starts completions parentSpan afterSequence).completed =
      some completed) : completed ∈ completions := by
  obtain ⟨started, completed', heq, hmem, -⟩ | heq :=
    selectLlmLifecycle_cases starts completions parentSpan afterSequence
  · rw [heq] at h
    obtain rfl : completed' = completed := Option.some_inj.mp h
    exact (List.mem_filter.mp hmem).1
  · rw [heq] at h
    cases h

end Lifecycle

/-- The raw events of a lifecycle are a start and a completion of one span. -/
structure LifecycleIn (ordered : List ExplainabilityEnvelope) (span : String)
    (lifecycle : LlmLifecycle) : Prop where
  started : ∀ x, lifecycle.started = some x → x.envelope ∈ ordered ∧ x.spanId = span
  completed : ∀ x, lifecycle.completed = some x → x.envelope ∈ ordered ∧ x.spanId = span

variable {host : Host} {ordered : List ExplainabilityEnvelope} {span : String}
  {lifecycle : LlmLifecycle}

theorem mem_requestsOfSpan {α : Type} {guard : TypeGuard α} {x : TypedEnvelope guard} :
    x ∈ requestsOfSpan (grouped (·.spanId) (typedEnvelopes guard ordered)) span ↔
      x.envelope ∈ ordered ∧ x.spanId = span := by
  rw [requestsOfSpan, getD_get_grouped, List.mem_filter, mem_typedEnvelopes,
    decide_eq_true_eq]

theorem requestsOfSpan_pairwise {α : Type} {guard : TypeGuard α} (h : SequencesIncrease ordered) :
    (requestsOfSpan (grouped (·.spanId) (typedEnvelopes guard ordered))
      span).Pairwise fun a b => a.sequence < b.sequence := by
  rw [requestsOfSpan, getD_get_grouped]
  exact (h.typedEnvelopes guard).filter _

theorem lifecycleIn_selectLlmLifecycle {starts : LlmStarts} {completions : LlmCompletions}
    (hstarts : ∀ x ∈ starts, x ∈ requestsOfSpan (llmStartedBySpan ordered) span)
    (hcompletions : ∀ x ∈ completions, x ∈ requestsOfSpan (llmCompletedBySpan ordered) span)
    (parentSpan : String) (afterSequence : ℚ) :
    LifecycleIn ordered span (selectLlmLifecycle starts completions parentSpan afterSequence) where
  started x hx :=
    mem_requestsOfSpan.mp (hstarts x (startedIn_of_selectLlmLifecycle hx).mem)
  completed x hx :=
    mem_requestsOfSpan.mp (hcompletions x (mem_completions_of_selectLlmLifecycle hx))

namespace LlmLifecycle

theorem mem_rawEvents {raw : ExplainabilityEnvelope} : raw ∈ lifecycle.rawEvents ↔
    (∃ x, lifecycle.started = some x ∧ x.envelope = raw) ∨
      ∃ x, lifecycle.completed = some x ∧ x.envelope = raw := by
  simp [rawEvents]

theorem hasTypes_rawEvents (lifecycle : LlmLifecycle) :
    HasTypes ["llm_request_started", "llm_request_completed"] lifecycle.rawEvents :=
  (hasTypes_option _).append (hasTypes_option _)

theorem rawEvents_nodup (lifecycle : LlmLifecycle) : lifecycle.rawEvents.Nodup :=
  (Option.toList_nodup _).append (Option.toList_nodup _)
    ((hasTypes_option _).disjoint (hasTypes_option _) (by decide))

end LlmLifecycle

theorem LifecycleIn.mem (h : LifecycleIn ordered span lifecycle) {raw : ExplainabilityEnvelope}
    (hraw : raw ∈ lifecycle.rawEvents) : raw ∈ ordered ∧ raw.record.spanId = span := by
  rw [LlmLifecycle.mem_rawEvents] at hraw
  obtain ⟨x, hx, rfl⟩ | ⟨x, hx, rfl⟩ := hraw
  · exact h.started x hx
  · exact h.completed x hx

/-! ### The batches of the map -/

/-- The evidence of a batch with an index, under the span of the map. -/
structure BatchIn (ordered : List ExplainabilityEnvelope) (mapSpan : String) (index : ℚ)
    (batch : BatchEvidence) : Prop where
  built_mem : batch.latestBuilt.envelope ∈ ordered
  built_parent : batch.latestBuilt.parentSpanId = some mapSpan
  built_index : batch.latestBuilt.event.batchIndex = index
  lifecycle_eq : batch.lifecycle = selectLlmLifecycle
    (requestsOfSpan (llmStartedBySpan ordered) batch.latestBuilt.spanId)
    (requestsOfSpan (llmCompletedBySpan ordered) batch.latestBuilt.spanId) mapSpan
    batch.latestBuilt.sequence
  rawEvents_eq : ∃ built : List (TypedEnvelope isGlobalMapBatchBuilt),
    batch.rawEvents = built.map (·.envelope) ++ batch.lifecycle.rawEvents ∧ built.Nodup ∧
      batch.latestBuilt ∈ built ∧ ∀ x ∈ built, x.envelope ∈ ordered ∧ x.event.batchIndex = index
  points : ∀ produced, batch.produced = some produced →
    produced.envelope ∈ ordered ∧ produced.event.batchIndex = index ∧
      pointsBelong (some mapSpan) (llmStartedBySpan ordered) batch produced

/-- Batches with indexes of their own. -/
structure BatchesIn (ordered : List ExplainabilityEnvelope)
    (batches : InsertionMap ℚ BatchEvidence) : Prop where
  nodup : (batches.map Prod.fst).Nodup
  batchIn : ∀ entry ∈ batches, ∃ span, mapSpan ordered = some span ∧
    BatchIn ordered span entry.1 entry.2

theorem batchIn_of_batchEvidence {mapSpan : String} {index : ℚ}
    {events : List (TypedEnvelope isGlobalMapBatchBuilt)} {batch : BatchEvidence}
    (hincrease : SequencesIncrease ordered)
    (hevents : events = (typedEnvelopes isGlobalMapBatchBuilt ordered).filter
      fun event => event.event.batchIndex = index)
    (h : batchEvidence mapSpan (llmStartedBySpan ordered) (llmCompletedBySpan ordered) events =
      some batch) : BatchIn ordered mapSpan index batch := by
  have hmem : ∀ x ∈ events, x.envelope ∈ ordered ∧ x.event.batchIndex = index := by
    intro x hx
    rw [hevents, List.mem_filter, mem_typedEnvelopes, decide_eq_true_eq] at hx
    exact hx
  have hnodup : events.Nodup := by
    rw [hevents]
    refine List.Nodup.filter _ ((hincrease.typedEnvelopes _).imp ?_)
    intro a b hlt hab
    exact lt_irrefl _ (hab ▸ hlt)
  simp only [batchEvidence, Option.bind_eq_bind, Option.bind_eq_some_iff] at h
  obtain ⟨latestBuilt, hlast, h⟩ := h
  obtain rfl := Option.some_inj.mp h
  have hlatest := List.mem_filter.mp (mem_of_last hlast)
  refine ⟨(hmem _ hlatest.1).1, by simpa using hlatest.2, (hmem _ hlatest.1).2, rfl,
    ⟨_, rfl, (hnodup.filter _).filter _, ?_, ?_⟩, ?_⟩
  · rw [List.mem_filter, decide_eq_true_eq]
    exact ⟨mem_of_last hlast, rfl⟩
  · intro x hx
    exact hmem x (List.mem_filter.mp (List.mem_filter.mp hx).1).1
  · intro produced hproduced
    cases hproduced

theorem collectBatches_entry {mapSpan : Option String} {starts : InsertionMap String LlmStarts}
    {completions : InsertionMap String LlmCompletions} {index : ℚ} {entry : ℚ × BatchEvidence}
    {events : List (TypedEnvelope isGlobalMapBatchBuilt)}
    (h : (do
      let mapSpan ← mapSpan
      let batch ← batchEvidence mapSpan starts completions events
      return (index, batch)) = some entry) :
    entry.1 = index ∧ ∃ span, mapSpan = some span ∧
      batchEvidence span starts completions events = some entry.2 := by
  simp only [Option.bind_eq_bind, Option.bind_eq_some_iff] at h
  obtain ⟨span, hspan, batch, hbatch, h⟩ := h
  obtain rfl := Option.some_inj.mp h
  exact ⟨rfl, span, hspan, hbatch⟩

theorem batchesIn_collectBatches (hincrease : SequencesIncrease ordered) :
    BatchesIn ordered (collectBatches (mapSpan ordered)
      (grouped (·.event.batchIndex) (typedEnvelopes isGlobalMapBatchBuilt ordered))
      (llmStartedBySpan ordered) (llmCompletedBySpan ordered)) := by
  constructor
  · rw [collectBatches, List.Nodup, List.pairwise_map]
    refine List.Pairwise.filterMap _ ?_ (List.pairwise_map.mp (grouped_nodup _ _))
    intro a b hab x hx y hy
    rw [(collectBatches_entry hx).1, (collectBatches_entry hy).1]
    exact hab
  · intro entry hentry
    rw [collectBatches, List.mem_filterMap] at hentry
    obtain ⟨⟨index, events⟩, hgroup, hentry⟩ := hentry
    obtain ⟨rfl, span, hspan, hbatch⟩ := collectBatches_entry hentry
    exact ⟨span, hspan,
      batchIn_of_batchEvidence hincrease (of_mem_grouped hgroup) hbatch⟩

/-- A points event goes to a batch of its index, and leaves the rest of the batch as it is. -/
theorem BatchesIn.attachPoints {batches : InsertionMap ℚ BatchEvidence}
    (h : BatchesIn ordered batches) {produced : TypedEnvelope isGlobalMapPointsProduced}
    (hproduced : produced.envelope ∈ ordered) :
    BatchesIn ordered
      (attachPoints (mapSpan ordered) (llmStartedBySpan ordered) batches produced) := by
  unfold SemanticGlobal.attachPoints
  cases hget : batches.get produced.event.batchIndex with
  | none => exact h
  | some batch =>
    dsimp only
    split
    · next hbelong =>
      refine ⟨nodup_set h.nodup, ?_⟩
      intro entry hentry
      obtain rfl | hentry := of_mem_set hentry
      · obtain ⟨span, hspan, hbatch⟩ :=
          h.batchIn _ ((mem_iff_get h.nodup).mpr hget)
        refine ⟨span, hspan, { hbatch with points := ?_ }⟩
        intro other hother
        obtain rfl : produced = other := Option.some_inj.mp hother
        exact ⟨hproduced, rfl, hspan ▸ hbelong.1⟩
      · exact h.batchIn entry hentry
    · exact h

/-- The batches after the loop over the points events. -/
theorem exists_mapBatches (hincrease : SequencesIncrease ordered) :
    ∃ batches, BatchesIn ordered batches ∧
      mapBatches ordered = batches.values.map (·.withPoints) := by
  refine ⟨_, ?_, rfl⟩
  have hmem : ∀ x ∈ typedEnvelopes isGlobalMapPointsProduced ordered, x.envelope ∈ ordered :=
    fun x hx => mem_typedEnvelopes.mp hx
  generalize typedEnvelopes isGlobalMapPointsProduced ordered = points at hmem ⊢
  generalize hbatches : collectBatches _ _ _ _ = batches
  have hbatches : BatchesIn ordered batches := hbatches ▸ batchesIn_collectBatches hincrease
  clear * - hmem hbatches
  induction points generalizing batches with
  | nil => exact hbatches
  | cons produced points ih =>
    rw [List.forall_mem_cons] at hmem
    exact ih hmem.2 _ (hbatches.attachPoints hmem.1)

/-- The index of an event of the map, or else its span. -/
def rawOwner (raw : ExplainabilityEnvelope) : ℚ ⊕ String :=
  match isGlobalMapBatchBuilt.accepts raw.record.event,
    isGlobalMapPointsProduced.accepts raw.record.event with
  | some built, _ => .inl built.batchIndex
  | none, some produced => .inl produced.batchIndex
  | none, none => .inr raw.record.spanId

theorem rawOwner_built (x : TypedEnvelope isGlobalMapBatchBuilt) :
    rawOwner x.envelope = .inl x.event.batchIndex := by
  rw [rawOwner, x.typed]

theorem rawOwner_points (x : TypedEnvelope isGlobalMapPointsProduced) :
    rawOwner x.envelope = .inl x.event.batchIndex := by
  rw [rawOwner, accepts_eq_none_of_type_ne (by decide) x, x.typed]

theorem rawOwner_of_type_ne {α : Type} {guard : TypeGuard α}
    (hbuilt : isGlobalMapBatchBuilt.type ≠ guard.type)
    (hpoints : isGlobalMapPointsProduced.type ≠ guard.type) (x : TypedEnvelope guard) :
    rawOwner x.envelope = .inr x.spanId := by
  rw [rawOwner, accepts_eq_none_of_type_ne hbuilt x,
    accepts_eq_none_of_type_ne hpoints x, spanId]

namespace BatchIn

variable {mapSpan : String} {index : ℚ} {batch : BatchEvidence}
  (h : BatchIn ordered mapSpan index batch)
include h

theorem lifecycleIn : LifecycleIn ordered batch.latestBuilt.spanId batch.lifecycle := by
  rw [h.lifecycle_eq]
  exact lifecycleIn_selectLlmLifecycle (fun _ => id) (fun _ => id) _ _

/-- Each raw event of a batch is an event of the run that has the batch's index or its span. -/
theorem mem_withPoints {raw : ExplainabilityEnvelope}
    (hraw : raw ∈ batch.withPoints.rawEvents) : raw ∈ ordered ∧
      (rawOwner raw = .inl index ∨ rawOwner raw = .inr batch.latestBuilt.spanId) := by
  obtain ⟨built, heq, -, -, hbuilt⟩ := h.rawEvents_eq
  rw [BatchEvidence.withPoints, heq, List.mem_append, List.mem_append] at hraw
  obtain (hraw | hraw) | hraw := hraw
  · obtain ⟨x, hx, rfl⟩ := List.mem_map.mp hraw
    refine ⟨(hbuilt x hx).1, .inl ?_⟩
    rw [rawOwner_built, (hbuilt x hx).2]
  · obtain ⟨hmem, hspan⟩ := h.lifecycleIn.mem hraw
    refine ⟨hmem, .inr ?_⟩
    rw [LlmLifecycle.mem_rawEvents] at hraw
    obtain ⟨x, -, rfl⟩ | ⟨x, -, rfl⟩ := hraw
    · rw [rawOwner_of_type_ne (by decide) (by decide) x, spanId, hspan]
    · rw [rawOwner_of_type_ne (by decide) (by decide) x, spanId, hspan]
  · simp only [Option.mem_toList, Option.map_eq_some_iff] at hraw
    obtain ⟨x, hx, rfl⟩ := hraw
    obtain ⟨hmem, hindex, -⟩ := h.points x hx
    refine ⟨hmem, .inl ?_⟩
    rw [rawOwner_points, hindex]

theorem withPoints_nodup : batch.withPoints.rawEvents.Nodup := by
  obtain ⟨built, heq, hnodup, -⟩ := h.rawEvents_eq
  rw [BatchEvidence.withPoints, heq]
  have hbuilt := hasTypes_map built
  have hlifecycle := batch.lifecycle.hasTypes_rawEvents
  exact ((hnodup.map envelope_injective).append batch.lifecycle.rawEvents_nodup
    (hbuilt.disjoint hlifecycle (by decide))).append (Option.toList_nodup _)
    ((hbuilt.append hlifecycle).disjoint (hasTypes_option _) (by decide))

end BatchIn

/-- A batch that was built, asked, answered and read in one span under the map, in this order and
with no later request before its points. -/
structure CompletedBatch (ordered : List ExplainabilityEnvelope) (batch : GlobalMapBatchView)
    (mapStarted : TypedEnvelope isGlobalMapStarted) (built : TypedEnvelope isGlobalMapBatchBuilt)
    (started : TypedEnvelope isLlmRequestStarted)
    (completed : TypedEnvelope isLlmRequestCompleted)
    (produced : TypedEnvelope isGlobalMapPointsProduced) : Prop where
  map : last (typedEnvelopes isGlobalMapStarted ordered) = some mapStarted
  mem : built.envelope ∈ ordered ∧ started.envelope ∈ ordered ∧ completed.envelope ∈ ordered ∧
    produced.envelope ∈ ordered
  shown : built.envelope ∈ batch.rawEvents ∧ started.envelope ∈ batch.rawEvents ∧
    completed.envelope ∈ batch.rawEvents ∧ produced.envelope ∈ batch.rawEvents
  index : built.event.batchIndex = batch.batchIndex ∧ produced.event.batchIndex = batch.batchIndex
  span : built.spanId = batch.spanId ∧ started.spanId = batch.spanId ∧
    completed.spanId = batch.spanId ∧ produced.spanId = batch.spanId
  parent : built.parentSpanId = some mapStarted.spanId ∧
    started.parentSpanId = some mapStarted.spanId ∧
    completed.parentSpanId = some mapStarted.spanId ∧
    produced.parentSpanId = some mapStarted.spanId
  order : built.sequence < started.sequence ∧ started.sequence < completed.sequence ∧
    completed.sequence < produced.sequence
  no_later_start : ∀ other : TypedEnvelope isLlmRequestStarted, other.envelope ∈ ordered →
    other.spanId = batch.spanId → other.parentSpanId = some mapStarted.spanId →
    started.sequence < other.sequence → produced.sequence < other.sequence

theorem BatchIn.completed {index : ℚ} {batch : BatchEvidence}
    {mapStarted : TypedEnvelope isGlobalMapStarted}
    {produced : TypedEnvelope isGlobalMapPointsProduced} (hincrease : SequencesIncrease ordered)
    (hmap : last (typedEnvelopes isGlobalMapStarted ordered) = some mapStarted)
    (h : BatchIn ordered mapStarted.spanId index batch) (hproduced : batch.produced = some produced) :
    ∃ built started completed,
      CompletedBatch ordered (buildBatchView host batch.withPoints) mapStarted built started
        completed produced := by
  obtain ⟨hmem, hindex, hbelong⟩ := h.points produced hproduced
  simp only [pointsBelong, Bool.and_eq_true, decide_eq_true_eq, Option.any_eq_true] at hbelong
  obtain ⟨⟨hspan, hparent⟩, completed, hcompleted, hafter, hlater⟩ := hbelong
  have hselect := h.lifecycle_eq ▸ hcompleted
  have hsorted : (requestsOfSpan (llmStartedBySpan ordered) batch.latestBuilt.spanId).Pairwise
      fun a b => a.sequence < b.sequence := requestsOfSpan_pairwise hincrease
  obtain ⟨started, hstarted, hin⟩ := completedIn_of_selectLlmLifecycle hsorted hselect
  have hstart := startedIn_of_selectLlmLifecycle hstarted
  rw [← h.lifecycle_eq] at hstarted
  obtain ⟨hstartMem, hstartSpan⟩ := mem_requestsOfSpan.mp hstart.mem
  obtain ⟨hendMem, hendSpan⟩ := mem_requestsOfSpan.mp hin.mem
  have hbefore := hincrease.lt_of_le (by decide) hstartMem hendMem hin.before
  have hread := hincrease.lt_of_le (by decide) hendMem hmem hafter
  refine ⟨batch.latestBuilt, started, completed, hmap, ⟨h.built_mem, hstartMem, hendMem, hmem⟩, ?_,
    ⟨rfl, hindex.trans h.built_index.symm⟩, ⟨rfl, hstartSpan, hendSpan, hspan⟩,
    ⟨h.built_parent, hstart.parent, hin.parent, hparent⟩, ⟨hstart.after, hbefore, hread⟩, ?_⟩
  · obtain ⟨built, heq, -, hbuilt, -⟩ := h.rawEvents_eq
    have hraw : ∀ raw, raw ∈ (buildBatchView host batch.withPoints).rawEvents ↔
        raw ∈ built.map (·.envelope) ∨ raw ∈ batch.lifecycle.rawEvents ∨
          raw = produced.envelope := by
      intro raw
      rw [buildBatchView, Js.mem_sortBy, BatchEvidence.withPoints, heq, hproduced]
      simp
    simp only [hraw, LlmLifecycle.mem_rawEvents]
    exact ⟨.inl (List.mem_map_of_mem hbuilt), .inr (.inl (.inl ⟨_, hstarted, rfl⟩)),
      .inr (.inl (.inr ⟨_, hcompleted, rfl⟩)), .inr (.inr trivial)⟩
  · intro other hother hotherSpan hotherParent hlt
    by_contra hle
    have hmem : other ∈ requestsOfSpan (llmStartedBySpan ordered) batch.latestBuilt.spanId :=
      mem_requestsOfSpan.mpr ⟨hother, hotherSpan⟩
    -- A start behind the chosen one lies behind the completion, as the chosen one is the last.
    have hbehind : completed.sequence < other.sequence := by
      by_contra hbefore
      exact absurd (hin.latest other hmem hotherParent (hstart.after.trans hlt)
        (not_lt.mp hbefore)) (not_le.mpr hlt)
    rw [hspan] at hlater
    simp only [Bool.not_eq_true', List.any_eq_false, Bool.and_eq_true, decide_eq_true_eq] at hlater
    exact hlater other hmem ⟨⟨hotherParent, hbehind⟩, not_lt.mp hle⟩

/-! ### The dynamic community selection -/

/-- The raw events of the selection: the start, the waves, the attempts with their requests, and
the completion. -/
structure SelectionRaw (ordered raw : List ExplainabilityEnvelope)
    (started : Option (TypedEnvelope isDynamicSelectionStarted))
    (waves : List (TypedEnvelope isDynamicTraversalWaveStarted))
    (attempts : List (TypedEnvelope isDynamicRatingAttemptStarted))
    (lifecycle : TypedEnvelope isDynamicRatingAttemptStarted → LlmLifecycle)
    (completed : Option (TypedEnvelope isDynamicSelectionCompleted)) : Prop where
  sorted : raw.Pairwise fun a b => a.sequence ≤ b.sequence
  perm : raw.Perm ((started.map (·.envelope)).toList ++ waves.map (·.envelope) ++
    attempts.flatMap (fun attempt => attempt.envelope :: (lifecycle attempt).rawEvents) ++
    (completed.map (·.envelope)).toList)
  started_mem : ∀ x, started = some x → x.envelope ∈ ordered
  waves_mem : ∀ x ∈ waves, x.envelope ∈ ordered
  waves_nodup : waves.Nodup
  attempts_mem : ∀ x ∈ attempts, x.envelope ∈ ordered
  attempts_pairwise : attempts.Pairwise fun a b => attemptIdentity a ≠ attemptIdentity b
  lifecycleIn : ∀ x ∈ attempts, LifecycleIn ordered x.spanId (lifecycle x)
  completed_mem : ∀ x, completed = some x → x.envelope ∈ ordered

/-- The request of a rating attempt. -/
def attemptLifecycle (ordered : List ExplainabilityEnvelope) (selectionSpan : String)
    (upperBound : Option ℚ) (attempt : TypedEnvelope isDynamicRatingAttemptStarted) :
    LlmLifecycle :=
  selectLlmLifecycle
    ((requestsOfSpan (llmStartedBySpan ordered) attempt.spanId).filter
      fun event => belowBound upperBound event.sequence)
    ((requestsOfSpan (llmCompletedBySpan ordered) attempt.spanId).filter
      fun event => belowBound upperBound event.sequence)
    selectionSpan attempt.sequence

theorem attemptLifecycle_lifecycleIn (selectionSpan : String) (upperBound : Option ℚ)
    (attempt : TypedEnvelope isDynamicRatingAttemptStarted) :
    LifecycleIn ordered attempt.spanId
      (attemptLifecycle ordered selectionSpan upperBound attempt) :=
  lifecycleIn_selectLlmLifecycle (fun _ hx => (List.mem_filter.mp hx).1)
    (fun _ hx => (List.mem_filter.mp hx).1) _ _

theorem flatMap_attemptViews_perm (host : Host) (selectionSpan : String) (upperBound : Option ℚ)
    (attempts : List (TypedEnvelope isDynamicRatingAttemptStarted)) :
    (((attempts.map fun attempt => buildDynamicAttemptView attempt selectionSpan upperBound
        (requestsOfSpan (llmStartedBySpan ordered) attempt.spanId)
        (requestsOfSpan (llmCompletedBySpan ordered) attempt.spanId)).insertionSort
      fun left right => host.compareAttempts left right ≤ 0).flatMap (·.rawEvents)).Perm
    (attempts.flatMap fun attempt => attempt.envelope ::
      (attemptLifecycle ordered selectionSpan upperBound attempt).rawEvents) := by
  refine ((List.perm_insertionSort _ _).flatMap_right _).trans ?_
  rw [List.flatMap_map]
  exact List.Perm.flatMap_left _ fun attempt _ => Js.sortBy_perm _ _

theorem exists_selectionRaw {build : DynamicSelectionBuild}
    (h : dynamicSelection host ordered = some build) :
    ∃ started waves attempts lifecycle completed,
      SelectionRaw ordered build.rawEvents started waves attempts lifecycle completed := by
  simp only [dynamicSelection, buildDynamicSelection, Option.bind_eq_bind,
    Option.bind_eq_some_iff] at h
  obtain ⟨rootSpan, -, selectionSpan, -, h⟩ := h
  obtain rfl := Option.some_inj.mp h
  refine ⟨_, _, _, _, _, Js.sortBy_pairwise _ _,
    (Js.sortBy_perm _ _).trans (List.Perm.append_right _ (List.Perm.append_left _
      (flatMap_attemptViews_perm host selectionSpan _ _))), ?_, ?_, ?_, ?_, ?_, ?_, ?_⟩
  · intro x hx
    exact mem_typedEnvelopes.mp (List.mem_filter.mp (List.mem_filter.mp (mem_of_last hx)).1).1
  · intro x hx
    have hmem := of_mem_values_latest (Js.mem_sortBy.mp hx)
    exact mem_typedEnvelopes.mp (List.mem_filter.mp (List.mem_filter.mp hmem).1).1
  · refine (Js.sortBy_perm _ _).nodup_iff.mpr ?_
    refine (values_latest_pairwise _ _).imp ?_
    rintro a _ hne rfl
    exact hne rfl
  · intro x hx
    have hmem := of_mem_values_latest hx
    exact mem_typedEnvelopes.mp (List.mem_filter.mp (List.mem_filter.mp hmem).1).1
  · exact values_latest_pairwise _ _
  · intro x _
    exact attemptLifecycle_lifecycleIn selectionSpan _ x
  · intro x hx
    exact mem_typedEnvelopes.mp (List.mem_reverse.mp (List.mem_of_find?_eq_some hx))

/-! ### No event twice -/

/-- Two batch indexes do not share a span. -/
def BatchSpansApart (ordered : List ExplainabilityEnvelope) : Prop :=
  ∀ a b : TypedEnvelope isGlobalMapBatchBuilt, a.envelope ∈ ordered → b.envelope ∈ ordered →
    a.event.batchIndex ≠ b.event.batchIndex → a.spanId ≠ b.spanId

/-- Two rating attempts, of different communities or repeats, do not share a span. -/
def AttemptSpansApart (ordered : List ExplainabilityEnvelope) : Prop :=
  ∀ a b : TypedEnvelope isDynamicRatingAttemptStarted,
    a.envelope ∈ ordered → b.envelope ∈ ordered →
    (a.event.communityId, a.event.repeatIndex) ≠ (b.event.communityId, b.event.repeatIndex) →
    a.spanId ≠ b.spanId

/-- Events with owners of their own are apart. -/
theorem disjoint_of_owner {ε κ σ : Type} (owner : ε → κ ⊕ σ) {xs ys : List ε} {k k' : κ}
    {s s' : σ} (hxs : ∀ x ∈ xs, owner x = .inl k ∨ owner x = .inr s)
    (hys : ∀ y ∈ ys, owner y = .inl k' ∨ owner y = .inr s') (hk : k ≠ k') (hs : s ≠ s') :
    xs.Disjoint ys := by
  intro x hx hy
  obtain h | h := hxs x hx
  · obtain h' | h' := hys x hy
    · exact hk (Sum.inl_injective (h.symm.trans h'))
    · rw [h] at h'
      cases h'
  · obtain h' | h' := hys x hy
    · rw [h] at h'
      cases h'
    · exact hs (Sum.inr_injective (h.symm.trans h'))

theorem mapBatches_flatMap_nodup (hincrease : SequencesIncrease ordered)
    (hspans : BatchSpansApart ordered) : ((mapBatches ordered).flatMap (·.rawEvents)).Nodup := by
  obtain ⟨batches, hbatches, heq⟩ := exists_mapBatches hincrease
  rw [heq, values, List.map_map, List.flatMap_map, List.nodup_flatMap]
  constructor
  · intro entry hentry
    obtain ⟨span, -, hbatch⟩ := hbatches.batchIn entry hentry
    exact hbatch.withPoints_nodup
  · refine List.Pairwise.imp_of_mem ?_ (List.pairwise_map.mp hbatches.nodup)
    intro a b ha hb hab
    obtain ⟨span, -, hbatch⟩ := hbatches.batchIn a ha
    obtain ⟨span', -, hbatch'⟩ := hbatches.batchIn b hb
    have hne : a.2.latestBuilt.spanId ≠ b.2.latestBuilt.spanId := by
      apply hspans _ _ hbatch.built_mem hbatch'.built_mem
      rw [hbatch.built_index, hbatch'.built_index]
      exact hab
    exact disjoint_of_owner rawOwner (fun _ hx => (hbatch.mem_withPoints hx).2)
      (fun _ hy => (hbatch'.mem_withPoints hy).2) hab hne

/-- The identity of a rating attempt, or else the span of an event. -/
def attemptOwner (raw : ExplainabilityEnvelope) : String ⊕ String :=
  match isDynamicRatingAttemptStarted.accepts raw.record.event with
  | some attempt => .inl (dynamicAttemptIdentity attempt.communityId attempt.repeatIndex)
  | none => .inr raw.record.spanId

theorem attemptOwner_attempt (x : TypedEnvelope isDynamicRatingAttemptStarted) :
    attemptOwner x.envelope = .inl (attemptIdentity x) := by
  rw [attemptOwner, x.typed, attemptIdentity]

theorem attemptOwner_of_type_ne {α : Type} {guard : TypeGuard α}
    (h : isDynamicRatingAttemptStarted.type ≠ guard.type) (x : TypedEnvelope guard) :
    attemptOwner x.envelope = .inr x.spanId := by
  rw [attemptOwner, accepts_eq_none_of_type_ne h x, spanId]

theorem attemptOwner_of_mem {attempt : TypedEnvelope isDynamicRatingAttemptStarted}
    (h : LifecycleIn ordered attempt.spanId lifecycle) {raw : ExplainabilityEnvelope}
    (hraw : raw ∈ attempt.envelope :: lifecycle.rawEvents) :
    attemptOwner raw = .inl (attemptIdentity attempt) ∨
      attemptOwner raw = .inr attempt.spanId := by
  obtain rfl | hraw := List.mem_cons.mp hraw
  · exact .inl (attemptOwner_attempt attempt)
  · right
    have hspan := (h.mem hraw).2
    rw [LlmLifecycle.mem_rawEvents] at hraw
    obtain ⟨x, -, rfl⟩ | ⟨x, -, rfl⟩ := hraw
    · rw [attemptOwner_of_type_ne (by decide) x, spanId, hspan]
    · rw [attemptOwner_of_type_ne (by decide) x, spanId, hspan]

namespace SelectionRaw

variable {raw : List ExplainabilityEnvelope}
  {started : Option (TypedEnvelope isDynamicSelectionStarted)}
  {waves : List (TypedEnvelope isDynamicTraversalWaveStarted)}
  {attempts : List (TypedEnvelope isDynamicRatingAttemptStarted)}
  {lifecycle : TypedEnvelope isDynamicRatingAttemptStarted → LlmLifecycle}
  {completed : Option (TypedEnvelope isDynamicSelectionCompleted)}

theorem mem (h : SelectionRaw ordered raw started waves attempts lifecycle completed)
    {x : ExplainabilityEnvelope} (hx : x ∈ raw) : x ∈ ordered := by
  rw [h.perm.mem_iff] at hx
  simp only [List.mem_append, Option.mem_toList, Option.map_eq_some_iff, List.mem_map,
    List.mem_flatMap, List.mem_cons] at hx
  obtain ((⟨y, hy, rfl⟩ | ⟨y, hy, rfl⟩) | ⟨y, hy, rfl | hx⟩) | ⟨y, hy, rfl⟩ := hx
  · exact h.started_mem y hy
  · exact h.waves_mem y hy
  · exact h.attempts_mem y hy
  · exact ((h.lifecycleIn y hy).mem hx).1
  · exact h.completed_mem y hy

/-- An attempt and its request have three types of events. -/
theorem hasTypes_attempt (lifecycle : TypedEnvelope isDynamicRatingAttemptStarted → LlmLifecycle)
    (attempt : TypedEnvelope isDynamicRatingAttemptStarted) :
    HasTypes ["dynamic_community_rating_attempt_started", "llm_request_started",
      "llm_request_completed"] (attempt.envelope :: (lifecycle attempt).rawEvents) :=
  (hasTypes_map [attempt]).append (lifecycle attempt).hasTypes_rawEvents

theorem attempts_nodup (h : SelectionRaw ordered raw started waves attempts lifecycle completed)
    (hspans : AttemptSpansApart ordered) :
    (attempts.flatMap fun attempt =>
      attempt.envelope :: (lifecycle attempt).rawEvents).Nodup := by
  rw [List.nodup_flatMap]
  constructor
  · intro attempt _
    exact (List.nodup_singleton _).append (lifecycle attempt).rawEvents_nodup
      ((hasTypes_map [attempt]).disjoint (lifecycle attempt).hasTypes_rawEvents (by decide))
  · refine List.Pairwise.imp_of_mem ?_ h.attempts_pairwise
    intro a b ha hb hab
    have hne : a.spanId ≠ b.spanId := by
      apply hspans _ _ (h.attempts_mem a ha) (h.attempts_mem b hb)
      intro heq
      rw [Prod.mk.injEq] at heq
      exact hab (by rw [attemptIdentity, attemptIdentity, heq.1, heq.2])
    exact disjoint_of_owner attemptOwner (fun _ => attemptOwner_of_mem (h.lifecycleIn a ha))
      (fun _ => attemptOwner_of_mem (h.lifecycleIn b hb)) hab hne

theorem nodup (h : SelectionRaw ordered raw started waves attempts lifecycle completed)
    (hspans : AttemptSpansApart ordered) : raw.Nodup := by
  rw [h.perm.nodup_iff]
  have hstarted := hasTypes_option started
  have hwaves := hasTypes_map waves
  have hattempts := HasTypes.flatMap (hasTypes_attempt lifecycle) attempts
  refine (((Option.toList_nodup _).append
    (h.waves_nodup.map envelope_injective) ?_).append (h.attempts_nodup hspans)
    ?_).append (Option.toList_nodup _) ?_
  · exact hstarted.disjoint hwaves (by decide)
  · exact (hstarted.append hwaves).disjoint hattempts (by decide)
  · exact ((hstarted.append hwaves).append hattempts).disjoint (hasTypes_option _) (by decide)

end SelectionRaw

/-! ### The raw events of the steps -/

/-- Raw events of a run in its order, each of them once if spans are apart. -/
structure RawOf (ordered : List ExplainabilityEnvelope) (raw : List ExplainabilityEnvelope) :
    Prop where
  mem : ∀ x ∈ raw, x ∈ ordered
  sorted : raw.Pairwise fun a b => a.sequence ≤ b.sequence
  nodup : BatchSpansApart ordered → AttemptSpansApart ordered → raw.Nodup

/-- Sorted events of a run are raw events of it. -/
theorem rawOf_sortBy {raw : List ExplainabilityEnvelope} (hmem : ∀ x ∈ raw, x ∈ ordered)
    (hnodup : BatchSpansApart ordered → AttemptSpansApart ordered → raw.Nodup) :
    RawOf ordered (Js.sortBy (·.sequence) raw) where
  mem x hx := hmem x (Js.mem_sortBy.mp hx)
  sorted := Js.sortBy_pairwise _ raw
  nodup hbatches hattempts := (Js.sortBy_perm _ raw).nodup_iff.mpr (hnodup hbatches hattempts)

theorem rawOf_dynamicSelection {build : DynamicSelectionBuild}
    (h : dynamicSelection host ordered = some build) : RawOf ordered build.rawEvents := by
  obtain ⟨started, waves, attempts, lifecycle, completed, hraw⟩ := exists_selectionRaw h
  exact ⟨fun _ => hraw.mem, hraw.sorted, fun _ => hraw.nodup⟩

theorem rawOf_communityRaw (hincrease : SequencesIncrease ordered) :
    RawOf ordered (communityRaw host ordered) := by
  have hsorted : (communityRaw host ordered).Pairwise fun a b => a.sequence < b.sequence :=
    hincrease.filter _
  refine ⟨fun x hx => (List.mem_filter.mp hx).1, hsorted.imp fun h => le_of_lt h, fun _ _ => ?_⟩
  refine hsorted.imp ?_
  intro a b hlt hab
  exact lt_irrefl _ (hab ▸ hlt)

/-- The raw events of the map are those of the batches. -/
theorem flatMap_mapViews_perm (host : Host) (ordered : List ExplainabilityEnvelope) :
    ((mapViews host ordered).flatMap (·.rawEvents)).Perm
      ((mapBatches ordered).flatMap (·.rawEvents)) := by
  rw [mapViews, List.flatMap_map]
  exact List.Perm.flatMap_left _ fun batch _ => Js.sortBy_perm _ _

theorem rawOf_mapRaw (hincrease : SequencesIncrease ordered) :
    RawOf ordered (mapRaw host ordered) := by
  have hperm := flatMap_mapViews_perm host ordered
  refine rawOf_sortBy ?_ fun hbatches _ =>
    hperm.nodup_iff.mpr (mapBatches_flatMap_nodup hincrease hbatches)
  intro x hx
  rw [hperm.mem_iff, List.mem_flatMap] at hx
  obtain ⟨batch, hbatch, hraw⟩ := hx
  obtain ⟨batches, hbatches, heq⟩ := exists_mapBatches hincrease
  rw [heq, values, List.map_map, List.mem_map] at hbatch
  obtain ⟨entry, hentry, rfl⟩ := hbatch
  obtain ⟨span, -, hbatch⟩ := hbatches.batchIn entry hentry
  exact (hbatch.mem_withPoints hraw).1

theorem reduceBuilt_mem {x : TypedEnvelope isGlobalReduceContextBuilt}
    (h : reduceBuilt ordered = some x) : x.envelope ∈ ordered :=
  mem_typedEnvelopes.mp (mem_of_last h)

theorem reduceSkipped_mem {x : TypedEnvelope isGlobalReduceSkipped}
    (h : reduceSkipped ordered = some x) : x.envelope ∈ ordered := by
  simp only [reduceSkipped, compatibleReduceSkipped, Option.bind_eq_bind,
    Option.bind_eq_some_iff] at h
  obtain ⟨built, -, -, -, hlast⟩ := h
  exact mem_typedEnvelopes.mp (List.mem_filter.mp (mem_of_last hlast)).1

theorem rawOf_reduceRaw : RawOf ordered (reduceRaw ordered) := by
  refine rawOf_sortBy ?_ fun _ _ => (Option.toList_nodup _).append (Option.toList_nodup _)
    ((hasTypes_option _).disjoint (hasTypes_option _) (by decide))
  intro x hx
  simp only [List.mem_append, Option.mem_toList, Option.map_eq_some_iff] at hx
  obtain ⟨y, hy, rfl⟩ | ⟨y, hy, rfl⟩ := hx
  · exact reduceBuilt_mem hy
  · exact reduceSkipped_mem hy

theorem rawOf_answerRaw : RawOf ordered (answerRaw ordered) := by
  refine rawOf_sortBy ?_ fun _ _ => (answerLifecycle ordered).rawEvents_nodup
  intro x hx
  unfold answerLifecycle reduceLifecycle at hx
  split at hx
  · exact ((lifecycleIn_selectLlmLifecycle (fun _ => id) (fun _ => id) _ _).mem hx).1
  · exact absurd hx List.not_mem_nil

theorem rawOf_of_mem_steps (hincrease : SequencesIncrease ordered) {step : GlobalSemanticStep}
    (h : step ∈ (buildGlobalSemanticTimeline host ordered).steps) :
    RawOf ordered step.rawEvents := by
  simp only [buildGlobalSemanticTimeline, List.mem_append, Option.mem_toList,
    Option.map_eq_some_iff, List.mem_cons, List.not_mem_nil, or_false] at h
  obtain ⟨build, hbuild, rfl⟩ | rfl | rfl | rfl | rfl := h
  · exact rawOf_dynamicSelection hbuild
  · exact rawOf_communityRaw hincrease
  · exact rawOf_mapRaw hincrease
  · exact rawOf_reduceRaw
  · exact rawOf_answerRaw

/-! ### The claims -/

theorem mem_mapRaw_sequences (host : Host) {sequence : ℚ} :
    sequence ∈ (mapRaw host ordered).map (·.sequence) ↔
      sequence ∈ (mapBatches ordered).flatMap (·.rawEvents.map (·.sequence)) := by
  simp only [mapRaw, List.mem_map, Js.mem_sortBy, (flatMap_mapViews_perm host ordered).mem_iff,
    List.mem_flatMap]
  constructor
  · rintro ⟨x, ⟨batch, hbatch, hx⟩, rfl⟩
    exact ⟨batch, hbatch, x, hx, rfl⟩
  · rintro ⟨batch, hbatch, x, hx, rfl⟩
    exact ⟨x, ⟨batch, hbatch, hx⟩, rfl⟩

/-- What is claimed is what some step shows. -/
theorem mem_claimedSequences {sequence : ℚ} :
    sequence ∈ claimedSequences host ordered ↔
      ∃ step ∈ (buildGlobalSemanticTimeline host ordered).steps,
        sequence ∈ step.rawEvents.map (·.sequence) := by
  have hsteps : (∃ step ∈ (buildGlobalSemanticTimeline host ordered).steps,
      sequence ∈ step.rawEvents.map (·.sequence)) ↔
      sequence ∈ (dynamicRaw host ordered).map (·.sequence) ∨
        sequence ∈ (communityRaw host ordered).map (·.sequence) ∨
        sequence ∈ (mapRaw host ordered).map (·.sequence) ∨
        sequence ∈ (reduceRaw ordered).map (·.sequence) ∨
        sequence ∈ (answerRaw ordered).map (·.sequence) := by
    rw [dynamicRaw, buildGlobalSemanticTimeline]
    cases dynamicSelection host ordered with
    | none => simp [GlobalSemanticStep.rawEvents]
    | some build => simp [GlobalSemanticStep.rawEvents]
  rw [hsteps, claimedSequences, evidenceClaims]
  simp only [List.mem_append, ← mem_mapRaw_sequences host]
  grind

/-- A batch is shown as completed once it has points. -/
theorem produced_of_status {batch : BatchEvidence}
    (h : (buildBatchView host batch).status = .completed) :
    ∃ produced, batch.produced = some produced := by
  cases hproduced : batch.produced with
  | some produced => exact ⟨produced, rfl⟩
  | none =>
    simp only [buildBatchView, hproduced, Option.isSome_none, Bool.false_eq_true, if_false,
      ite_eq_iff, reduceCtorEq, and_false, or_false] at h

theorem completed_of_mem_mapViews (hincrease : SequencesIncrease ordered)
    {batch : GlobalMapBatchView} (h : batch ∈ mapViews host ordered)
    (hstatus : batch.status = .completed) :
    ∃ mapStarted built started completed produced,
      CompletedBatch ordered batch mapStarted built started completed produced := by
  obtain ⟨evidence, hevidence, rfl⟩ := List.mem_map.mp h
  obtain ⟨batches, hbatches, heq⟩ := exists_mapBatches hincrease
  rw [heq, values, List.map_map, List.mem_map] at hevidence
  obtain ⟨entry, hentry, rfl⟩ := hevidence
  obtain ⟨span, hspan, hbatch⟩ := hbatches.batchIn entry hentry
  obtain ⟨mapStarted, hmap, rfl⟩ := Option.map_eq_some_iff.mp hspan
  obtain ⟨produced, hproduced⟩ := produced_of_status hstatus
  obtain ⟨built, started, completed, hcompleted⟩ := hbatch.completed hincrease hmap hproduced
  exact ⟨mapStarted, built, started, completed, produced, hcompleted⟩

theorem buildGlobalSemanticTimeline_evidence (host : Host)
    (ordered : List ExplainabilityEnvelope) (hincrease : SequencesIncrease ordered) :
    (buildGlobalSemanticTimeline host ordered).diagnosticEvents =
        ordered.filter (fun envelope =>
          ∀ step ∈ (buildGlobalSemanticTimeline host ordered).steps,
            ∀ raw ∈ step.rawEvents, raw.sequence ≠ envelope.sequence) ∧
      (∀ step ∈ (buildGlobalSemanticTimeline host ordered).steps,
        (∀ raw ∈ step.rawEvents, raw ∈ ordered) ∧
          step.rawEvents.Pairwise (fun a b => a.sequence ≤ b.sequence) ∧
          (BatchSpansApart ordered → AttemptSpansApart ordered →
            (step.rawEvents.map (·.sequence)).Nodup)) ∧
      ∀ step ∈ (buildGlobalSemanticTimeline host ordered).steps,
        ∀ batch ∈ step.batches, batch.status = .completed →
          ∃ mapStarted built started completed produced,
            CompletedBatch ordered batch mapStarted built started completed produced := by
  refine ⟨?_, ?_, ?_⟩
  · refine List.filter_congr ?_
    intro envelope _
    rw [Bool.eq_iff_iff, Bool.not_eq_true', decide_eq_true_eq, ← Bool.not_eq_true,
      List.contains_iff_mem, mem_claimedSequences]
    simp only [List.mem_map, not_exists, not_and, ne_eq]
  · intro step hstep
    have hraw := rawOf_of_mem_steps hincrease hstep
    refine ⟨hraw.mem, hraw.sorted, fun hbatches hattempts => ?_⟩
    refine (hraw.nodup hbatches hattempts).map_on ?_
    intro a ha b hb hab
    exact hincrease.eq_of_sequence_eq (hraw.mem a ha) (hraw.mem b hb) hab
  · intro step hstep batch hbatch hstatus
    have hview : batch ∈ mapViews host ordered := by
      simp only [buildGlobalSemanticTimeline, List.mem_append, Option.mem_toList,
        Option.map_eq_some_iff, List.mem_cons, List.not_mem_nil, or_false] at hstep
      obtain ⟨build, -, rfl⟩ | rfl | rfl | rfl | rfl := hstep
      · exact absurd hbatch List.not_mem_nil
      · exact Js.mem_sortBy.mp hbatch
      · exact Js.mem_sortBy.mp hbatch
      · exact absurd hbatch List.not_mem_nil
      · exact absurd hbatch List.not_mem_nil
    exact completed_of_mem_mapViews hincrease hview hstatus

/-! ### A run with one batch -/

def sampleHost : Host where
  localeCompare left right := if left < right then -1 else if left = right then 0 else 1
  numberToString value := toString value.num

def sampleEnvelope (sequence : ℚ) (spanId : String) (parentSpanId : Option String)
    (properties : List (String × Js.Value)) : ExplainabilityEnvelope where
  schemaVersion := 1
  sequence := sequence
  record := ⟨"run", "2025-01-01T00:00:00Z", spanId, parentSpanId, .object properties⟩

def sampleNumber (value : ℚ) : Js.Value := .number (.finite value)

/-- A run whose batch was asked twice, as its first request was not completed. -/
def sampleRun : List ExplainabilityEnvelope :=
  [sampleEnvelope 1 "root" none
      [("type", .string "query_started"), ("method", .string "global")],
    sampleEnvelope 2 "map" (some "root")
      [("type", .string "global_map_started"), ("batch_count", sampleNumber 1)],
    sampleEnvelope 3 "batch" (some "map")
      [("type", .string "global_map_batch_built"), ("batch_index", sampleNumber 0),
        ("report_count", sampleNumber 1), ("report_ids", .array [.string "r1"]),
        ("tokens_used", sampleNumber 10), ("token_budget", sampleNumber 20)],
    sampleEnvelope 4 "batch" (some "map")
      [("type", .string "llm_request_started"), ("model_id", .string "chat"),
        ("prompt_tokens", sampleNumber 12)],
    sampleEnvelope 5 "batch" (some "map")
      [("type", .string "llm_request_started"), ("model_id", .string "chat"),
        ("prompt_tokens", sampleNumber 12)],
    sampleEnvelope 6 "batch" (some "map")
      [("type", .string "llm_request_completed"), ("model_id", .string "chat"),
        ("input_tokens", sampleNumber 12), ("output_tokens", sampleNumber 3),
        ("elapsed_ms", sampleNumber 7)],
    sampleEnvelope 7 "batch" (some "map")
      [("type", .string "global_map_points_produced"), ("batch_index", sampleNumber 0),
        ("points", .array [])]]

theorem buildGlobalSemanticTimeline_evidence_sample :
    (∀ step ∈ (buildGlobalSemanticTimeline sampleHost sampleRun).steps,
      ∀ raw ∈ step.rawEvents, raw ∈ sampleRun) ∧
    (buildGlobalSemanticTimeline sampleHost sampleRun).diagnosticEvents.map (·.sequence) = [1, 4] ∧
    ∀ batch ∈ mapViews sampleHost sampleRun,
      ∃ mapStarted built started completed produced,
        CompletedBatch sampleRun batch mapStarted built started completed produced := by
  have hevidence := buildGlobalSemanticTimeline_evidence sampleHost sampleRun (by decide +kernel)
  have hstatus : ∀ batch ∈ mapViews sampleHost sampleRun, batch.status = .completed := by
    decide +kernel
  refine ⟨fun step hstep => (hevidence.2.1 step hstep).1, by decide +kernel, ?_⟩
  intro batch hbatch
  refine hevidence.2.2 (.mapAnalysis _ _) (List.mem_append_right _ (.tail _ (.head _))) batch ?_
    (hstatus batch hbatch)
  exact Js.mem_sortBy.mpr hbatch

end GraphLoom.Studio.SemanticGlobal
