import GraphLoom.Query.Basic.Equiv.Context
import GraphLoom.Studio.BasicWire
import GraphLoom.Studio.Equiv.SemanticBasic

/-!
# Reading back the records of a Basic query

Each guard of the Basic timeline reads the fields that were written, and accepts an event only if
its numbers are safe integers (`safe_of_accepts`).
-/

namespace GraphLoom.Studio.BasicWire

open Foundation Js SemanticBasic
open Query.Basic (RankValid)

/-! ### Fields -/

theorem get_object (properties : List (String × Value)) (key : String) :
    (Value.object properties).get key = (properties.lookup key).getD .undefined := rfl

theorem lookup_optionalField (name key : String) (value : Option Value) :
    (optionalField name value).lookup key = if key = name then value else none := by
  by_cases h : key = name
  · subst h
    cases value <;> simp [optionalField]
  · have hbeq : (key == name) = false := beq_false_of_ne h
    cases value <;> simp [optionalField, List.lookup_cons, hbeq, h]

theorem optionalString?_map (value : Option String) :
    ((value.map Value.string).getD .undefined).optionalString? = some value := by
  cases value <;> rfl

theorem optional_map {α β : Type} {guard : Value → Option β} {f : α → Value} {g : α → β}
    {value : Option α} (hdefined : ∀ a, f a ≠ .undefined)
    (h : ∀ a, value = some a → guard (f a) = some (g a)) :
    SemanticBasic.optional guard ((value.map f).getD .undefined) = some (value.map g) := by
  cases value with
  | none => rfl
  | some a =>
    show SemanticBasic.optional guard (f a) = some (some (g a))
    have hguard := h a rfl
    unfold SemanticBasic.optional
    split
    · next hundefined => exact absurd hundefined (hdefined a)
    · rw [hguard]
      rfl

theorem ofNat_ne_undefined (n : ℕ) : Value.ofNat n ≠ .undefined := by
  intro h
  cases h

theorem arrayOf?_map {α β : Type} {guard : Value → Option β} {f : α → Value} {g : α → β}
    {values : List α} (h : ∀ a ∈ values, guard (f a) = some (g a)) :
    (Value.array (values.map f)).arrayOf? guard = some (values.map g) := by
  show (values.map f).mapM guard = some (values.map g)
  induction values with
  | nil => rfl
  | cons a values ih =>
    have hrest := ih fun b hb => h b (List.mem_cons_of_mem _ hb)
    rw [List.map_cons, List.mapM_cons, h a List.mem_cons_self, hrest]
    rfl

theorem isCandidate_candidateValue {candidate : Query.Basic.ExplainabilityCandidate}
    (h : candidate.Valid) : isCandidate (candidateValue candidate) = some (shownCandidate candidate) := by
  have hscore : SemanticBasic.optional Value.finiteNumber?
      ((candidate.score.map fun score => Value.number (.finite (doubleValue score.value))).getD
        .undefined) = some (candidate.score.map fun score => doubleValue score.value) := by
    refine optional_map (fun _ h => by cases h) ?_
    intro score _
    rfl
  have hrank : SemanticBasic.optional Value.positiveInteger?
      ((candidate.rank.map Value.ofNat).getD .undefined) =
        some (candidate.rank.map (Nat.cast : ℕ → ℤ)) := by
    refine optional_map ofNat_ne_undefined ?_
    intro rank hsome
    have hvalid := h.rank rank hsome
    have hlt : rank < 2 ^ 53 := by
      unfold u32Max at hvalid
      omega
    rw [positiveInteger?_ofNat hvalid.1, if_pos hlt]
  have hreason : ((candidate.reason.map fun reason =>
      Value.string (selectionReason reason)).getD .undefined).optionalString? =
        some (candidate.reason.map selectionReason) := by
    cases candidate.reason <;> rfl
  simp [isCandidate, candidateValue, get_object, List.lookup_append, lookup_optionalField,
    List.lookup_cons, Value.isObject, Value.string?, Value.boolean?, optionalString?_map, hscore, hrank,
    hreason, shownCandidate, guard]

theorem nonNegativeInteger?_ofNat_eq (n : ℕ) :
    (Value.ofNat n).nonNegativeInteger? =
      if (n : ℤ) ≤ maxSafeInteger then some (n : ℤ) else none := by
  have hiff : n < 2 ^ 53 ↔ (n : ℤ) ≤ maxSafeInteger := by
    unfold maxSafeInteger
    omega
  rw [nonNegativeInteger?_ofNat]
  simp only [hiff]

theorem ite_some_bind {α β : Type} {p : Prop} [Decidable p] {a : α} {f : α → Option β} :
    (if p then some a else none).bind f = if p then f a else none := by
  split <;> rfl

theorem isSectionBudget_sectionBudgetValue (budget : Query.Local.ContextSectionKind × ℕ) :
    isSectionBudget (sectionBudgetValue budget) = if (budget.2 : ℤ) ≤ maxSafeInteger then
      some (contextSectionKind budget.1, (budget.2 : ℤ)) else none := by
  simp [isSectionBudget, sectionBudgetValue, get_object, List.lookup_cons, Value.isObject,
    Value.string?, nonNegativeInteger?_ofNat_eq, ite_some_bind, guard]

/-! ### Events -/

theorem eventType_eventValue (event : Query.Basic.ExplainabilityEvent) :
    eventType (eventValue event) = some (eventFields event).1 := rfl

variable {event : Query.Basic.ExplainabilityEvent}

/-- A field of an event that is not its type. -/
theorem get_eventValue {key : String} (h : key ≠ "type") :
    (eventValue event).get key = ((eventFields event).2.lookup key).getD .undefined := by
  have hbeq : (key == "type") = false := beq_false_of_ne h
  rw [eventValue, get_object, List.lookup_cons, hbeq]

theorem accepts_eventValue {α : Type} {guard : TypeGuard α}
    (h : (eventFields event).1 = guard.type) :
    guard.accepts (eventValue event) = guard.fields (eventValue event) := by
  rw [TypeGuard.accepts, eventType_eventValue, h, if_pos rfl]

section Accepts

variable {modelId : String} {text : Option String} {a b c : ℕ}
  {candidates : List Query.Basic.ExplainabilityCandidate}
  {contextSection : Query.Basic.ExplainabilityContextSection}

theorem accepts_embeddingStarted :
    isEmbeddingStarted.accepts (eventValue (.embeddingStarted modelId text)) =
      some ⟨modelId, text⟩ := by
  rw [accepts_eventValue rfl]
  simp [isEmbeddingStarted, get_eventValue, eventFields, lookup_optionalField, List.lookup_cons,
    Value.string?, optionalString?_map]

theorem accepts_embeddingCompleted :
    isEmbeddingCompleted.accepts (eventValue (.embeddingCompleted modelId a b)) =
      if Safe (.embeddingCompleted modelId a b) then some ⟨modelId, a, b⟩ else none := by
  rw [accepts_eventValue rfl]
  simp [isEmbeddingCompleted, get_eventValue, eventFields, List.lookup_cons, Value.string?,
    nonNegativeInteger?_ofNat_eq, ite_some_bind, ← ite_and, Safe, figures]

theorem accepts_candidatesRetrieved (h : ∀ candidate ∈ candidates, candidate.Valid) :
    isCandidatesRetrieved.accepts (eventValue (.candidatesRetrieved .textUnit candidates)) =
      some ⟨"text_unit", candidates.map shownCandidate⟩ := by
  have harray := arrayOf?_map fun candidate hmem => isCandidate_candidateValue (h candidate hmem)
  rw [accepts_eventValue rfl]
  simp [isCandidatesRetrieved, candidatesGuard, get_eventValue, eventFields, List.lookup_cons,
    Value.string?, harray, recordType]

theorem accepts_candidatesFiltered (h : ∀ candidate ∈ candidates, candidate.Valid) :
    isCandidatesFiltered.accepts (eventValue (.candidatesFiltered .textUnit candidates)) =
      some ⟨"text_unit", candidates.map shownCandidate⟩ := by
  have harray := arrayOf?_map fun candidate hmem => isCandidate_candidateValue (h candidate hmem)
  rw [accepts_eventValue rfl]
  simp [isCandidatesFiltered, candidatesGuard, get_eventValue, eventFields, List.lookup_cons,
    Value.string?, harray, recordType]

theorem accepts_contextBudgetAllocated {kind : Query.Local.ContextSectionKind} :
    isContextBudgetAllocated.accepts (eventValue (.contextBudgetAllocated a [(kind, b)])) =
      if Safe (.contextBudgetAllocated a [(kind, b)]) then
        some ⟨a, [(contextSectionKind kind, (b : ℤ))]⟩ else none := by
  rw [accepts_eventValue rfl]
  simp [isContextBudgetAllocated, get_eventValue, eventFields, List.lookup_cons,
    nonNegativeInteger?_ofNat_eq, ite_some_bind, Value.arrayOf?, Value.array?,
    isSectionBudget_sectionBudgetValue, ← ite_and, Safe, figures]

theorem accepts_contextSectionBuilt :
    isContextSectionBuilt.accepts (eventValue (.contextSectionBuilt contextSection)) =
      if Safe (.contextSectionBuilt contextSection) then some ⟨shownSection contextSection⟩
      else none := by
  have hids : (Value.array (contextSection.selectedRecordIds.map .string)).arrayOf?
      Value.string? = some (contextSection.selectedRecordIds.map id) :=
    arrayOf?_map fun _ _ => rfl
  rw [accepts_eventValue rfl]
  simp [isContextSectionBuilt, isContextSection, contextSectionValue, get_eventValue, get_object,
    eventFields, List.lookup_cons, Value.isObject, Value.string?, Value.boolean?,
    nonNegativeInteger?_ofNat_eq, ite_some_bind, hids, ← ite_and, Safe, figures, shownSection,
    guard]

theorem accepts_contextCompleted :
    isContextCompleted.accepts (eventValue (.contextCompleted a text)) =
      if Safe (.contextCompleted a text) then some ⟨a, text⟩ else none := by
  rw [accepts_eventValue rfl]
  simp [isContextCompleted, get_eventValue, eventFields, lookup_optionalField, List.lookup_cons,
    optionalString?_map, nonNegativeInteger?_ofNat_eq, ite_some_bind, Safe, figures]

theorem accepts_llmRequestStarted :
    isLlmRequestStarted.accepts (eventValue (.llmRequestStarted modelId a text)) =
      if Safe (.llmRequestStarted modelId a text) then some ⟨modelId, a, text⟩ else none := by
  rw [accepts_eventValue rfl]
  simp [isLlmRequestStarted, get_eventValue, eventFields, lookup_optionalField, List.lookup_cons,
    Value.string?, optionalString?_map, nonNegativeInteger?_ofNat_eq, ite_some_bind, Safe, figures]

theorem accepts_llmRequestCompleted :
    isLlmRequestCompleted.accepts (eventValue (.llmRequestCompleted modelId a b c text)) =
      if Safe (.llmRequestCompleted modelId a b c text) then some ⟨modelId, a, b, c, text⟩
      else none := by
  rw [accepts_eventValue rfl]
  simp [isLlmRequestCompleted, get_eventValue, eventFields, lookup_optionalField, List.lookup_cons,
    Value.string?, optionalString?_map, nonNegativeInteger?_ofNat_eq, ite_some_bind, ← ite_and,
    Safe, figures]

end Accepts

/-! ### What is shown is safe -/

/-- One of the guards of the Basic timeline accepts the event. -/
def Accepted (event : Value) : Prop :=
  isEmbeddingStarted.accepts event ≠ none ∨ isEmbeddingCompleted.accepts event ≠ none ∨
    isCandidatesRetrieved.accepts event ≠ none ∨ isBasicRetrievalSkipped.accepts event ≠ none ∨
    isCandidatesFiltered.accepts event ≠ none ∨ isContextBudgetAllocated.accepts event ≠ none ∨
    isContextSectionBuilt.accepts event ≠ none ∨ isContextCompleted.accepts event ≠ none ∨
    isLlmRequestStarted.accepts event ≠ none ∨ isLlmRequestCompleted.accepts event ≠ none

theorem accepts_ne_none {α : Type} {guard : TypeGuard α} (x : TypedEnvelope guard) :
    guard.accepts x.envelope.record.event ≠ none := by
  rw [x.typed]
  exact Option.some_ne_none _

theorem accepted_of_shown {lifecycles : BasicLifecycles} {raw : ExplainabilityEnvelope}
    (h : raw ∈ lifecycles.shown) : Accepted raw.record.event := by
  rw [BasicLifecycles.mem_shown] at h
  simp only [PairLifecycle.rawEvents, List.mem_append, Option.mem_toList, Option.map_eq_some_iff,
    or_assoc] at h
  unfold Accepted
  obtain ⟨x, -, rfl⟩ | ⟨x, -, rfl⟩ | ⟨x, -, rfl⟩ | ⟨x, -, rfl⟩ | ⟨x, -, rfl⟩ | ⟨x, -, rfl⟩ |
    ⟨x, -, rfl⟩ | ⟨x, -, rfl⟩ | ⟨x, -, rfl⟩ | ⟨x, -, rfl⟩ := h
  all_goals
    have hx := accepts_ne_none x
    simp only [hx, true_or, or_true, ne_eq, not_false_eq_true]

/-- The guards of other types do not accept an event. -/
theorem accepts_of_type_ne (type : String)
    (htype : (eventFields event).1 = type) {α : Type} {guard : TypeGuard α}
    (h : guard.type ≠ type) : guard.accepts (eventValue event) = none := by
  rw [TypeGuard.accepts, eventType_eventValue, htype, if_neg]
  exact fun heq => h (Option.some_inj.mp heq).symm

theorem guard_types :
    isEmbeddingStarted.type = "embedding_started" ∧
      isEmbeddingCompleted.type = "embedding_completed" ∧
      isCandidatesRetrieved.type = "candidates_retrieved" ∧
      isBasicRetrievalSkipped.type = "basic_retrieval_skipped" ∧
      isCandidatesFiltered.type = "candidates_filtered" ∧
      isContextBudgetAllocated.type = "context_budget_allocated" ∧
      isContextSectionBuilt.type = "context_section_built" ∧
      isContextCompleted.type = "context_completed" ∧
      isLlmRequestStarted.type = "llm_request_started" ∧
      isLlmRequestCompleted.type = "llm_request_completed" :=
  ⟨rfl, rfl, rfl, rfl, rfl, rfl, rfl, rfl, rfl, rfl⟩

/-- An accepted event has no number that is too large. -/
theorem safe_of_accepted
    (hsections : ∀ total sections, event = .contextBudgetAllocated total sections →
      ∃ budget, sections = [budget])
    (h : Accepted (eventValue event)) : Safe event := by
  have hne := @accepts_of_type_ne event
  unfold Accepted at h
  cases event with
  | embeddingCompleted modelId promptTokens dimensions =>
    have hother := fun {α : Type} {guard : TypeGuard α} => @hne "embedding_completed" rfl α guard
    simpa [accepts_embeddingCompleted, hother, guard_types] using h
  | contextBudgetAllocated total sections =>
    obtain ⟨⟨kind, budget⟩, rfl⟩ := hsections total sections rfl
    have hother := fun {α : Type} {guard : TypeGuard α} => @hne "context_budget_allocated" rfl α guard
    simpa [accepts_contextBudgetAllocated, hother, guard_types] using h
  | contextSectionBuilt contextSection =>
    have hother := fun {α : Type} {guard : TypeGuard α} => @hne "context_section_built" rfl α guard
    simpa [accepts_contextSectionBuilt, hother, guard_types] using h
  | contextCompleted tokensUsed context =>
    have hother := fun {α : Type} {guard : TypeGuard α} => @hne "context_completed" rfl α guard
    simpa [accepts_contextCompleted, hother, guard_types] using h
  | llmRequestStarted modelId promptTokens prompt =>
    have hother := fun {α : Type} {guard : TypeGuard α} => @hne "llm_request_started" rfl α guard
    simpa [accepts_llmRequestStarted, hother, guard_types] using h
  | llmRequestCompleted modelId inputTokens outputTokens elapsedMs response =>
    have hother := fun {α : Type} {guard : TypeGuard α} => @hne "llm_request_completed" rfl α guard
    simpa [accepts_llmRequestCompleted, hother, guard_types] using h
  | _ => exact fun n hn => absurd hn List.not_mem_nil

end GraphLoom.Studio.BasicWire
