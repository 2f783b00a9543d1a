import GraphLoom.Query.Basic.Equiv.Context

/-!
# The records of a completed Basic query

A run that ends well and has lost nothing has recorded a `BasicTrace`, from its start over the
retrieval, the context and the answer to its completion (`run_entries`).
-/

namespace GraphLoom.Query.Basic

open GraphLoom.Explainability Foundation
open Recording BasicQueryExplainability BasicQueryRuntime

/-- What a completed run records beside its identity. -/
structure BasicTrace where
  embeddingModelId : String
  promptTokens : ℕ
  dimensions : ℕ
  candidates : List ExplainabilityCandidate
  decisions : List ExplainabilityCandidate
  contextSection : ExplainabilityContextSection
  contextText : String
  completionModelId : String
  requestTokens : ℕ
  prompt : Option String
  inputTokens : ℕ
  outputTokens : ℕ
  elapsedMs : ℕ
  response : Option String
  candidates_valid : ∀ candidate ∈ candidates, candidate.Valid
  decisions_valid : ∀ candidate ∈ decisions, candidate.Valid
  agrees : Agrees decisions contextSection

namespace BasicTrace

variable (trace : BasicTrace) (session : BasicQueryExplainability) (query : String)

def answerEntries : List Entry :=
  [(session.llm, some session.rootSpan,
      .llmRequestStarted trace.completionModelId trace.requestTokens trace.prompt),
    (session.llm, some session.rootSpan,
      .llmRequestCompleted trace.completionModelId trace.inputTokens trace.outputTokens
        trace.elapsedMs trace.response)]

/-- What is recorded under the root. -/
def queryEntries : List Entry :=
  retrievalEntries session query trace.embeddingModelId trace.promptTokens trace.dimensions
      trace.candidates ++
    contextEntries session trace.decisions trace.contextSection trace.contextText ++
    trace.answerEntries session

def startEntries (session : BasicQueryExplainability) (query : String) : List Entry :=
  [(session.rootSpan, none, .runStarted .query session.contentMode),
    (session.rootSpan, none, .queryStarted .basic (session.content query))]

def entries : List Entry :=
  startEntries session query ++ trace.queryEntries session query ++
    [(session.rootSpan, none, .runCompleted session.runElapsed)]

end BasicTrace

section Run

variable {runtime : BasicQueryRuntime} {session : BasicQueryExplainability} {s s' : Session}
  {query responseType : String}

theorem adds_start (query : String) (s : Session) :
    Adds s (session.start query s) (BasicTrace.startEntries session query) :=
  (adds_emit _ _ _ _).trans (adds_emit _ _ _ _)

theorem adds_emitLlmRequestStarted (request : Llm.CompletionRequest) (promptTokens : ℕ)
    (s : Session) :
    ∃ prompt, Adds s (runtime.emitLlmRequestStarted request promptTokens session s)
      [(session.llm, some session.rootSpan,
        .llmRequestStarted runtime.completionModelId promptTokens prompt)] := by
  refine ⟨request.messages.head?.bind fun message => session.content message.content.asStr, ?_⟩
  unfold emitLlmRequestStarted usizeToU64
  obtain ⟨h, -⟩ | h := convert_cases u64Max promptTokens s
  · rw [h]
    exact adds_emit _ _ _ _
  · rw [h]
    exact adds_markSidecarFailure s _

theorem adds_emitLlmCompleted (result : QueryResult) (s : Session) :
    ∃ inputTokens outputTokens, Adds s (runtime.emitLlmCompleted result session s)
      [(session.llm, some session.rootSpan, .llmRequestCompleted runtime.completionModelId
        inputTokens outputTokens session.llmElapsed (session.content result.response))] := by
  unfold emitLlmCompleted
  split
  · exact ⟨0, 0, adds_markSidecarFailure s _⟩
  · next usage husage =>
    have hinput := adds_convert u64Max usage.promptTokens s
    have houtput := adds_convert u64Max usage.outputTokens (convert u64Max usage.promptTokens s).2
    have helapsed := adds_convert u64Max session.llmElapsed
      (convert u64Max usage.outputTokens (convert u64Max usage.promptTokens s).2).2
    have hadds := (hinput.trans houtput).trans helapsed
    refine ⟨usage.promptTokens, usage.outputTokens, ?_⟩
    unfold usizeToU64 durationMillis
    dsimp only
    split
    · next h₁ h₂ h₃ =>
      rw [(eq_of_convert_eq_some h₁).1, (eq_of_convert_eq_some h₂).1,
        (eq_of_convert_eq_some h₃).1]
      exact hadds.trans (adds_emit _ _ _ _)
    · next hnone =>
      refine adds_of_lost _ hadds.terminalStarted ?_
      intro hdelivered
      have h₂ := (helapsed.delivered hdelivered).1
      have h₁ := (houtput.delivered h₂).1
      exact hnone _ _ _ (convert_eq_some_of_delivered h₁) (convert_eq_some_of_delivered h₂)
        (convert_eq_some_of_delivered hdelivered)

theorem prepareBasicStream_spec {events : List (Except QueryError QueryEvent)}
    (h : runtime.prepareBasicStream query responseType (some session) s = (.ok events, s')) :
    ∃ promptTokens dimensions candidates decisions contextSection contextText requestTokens prompt,
      (∀ candidate ∈ candidates, candidate.Valid) ∧
      (∀ candidate ∈ decisions, candidate.Valid) ∧
      Agrees decisions contextSection ∧
      Adds s s' (retrievalEntries session query runtime.basicContext.embeddingModelId promptTokens
          dimensions candidates ++ contextEntries session decisions contextSection contextText ++
        [(session.llm, some session.rootSpan,
          .llmRequestStarted runtime.completionModelId requestTokens prompt)]) := by
  obtain ⟨built, s₁, hbuilt, h⟩ := bind_eq_ok.mp h
  obtain ⟨messages, -, h⟩ := lift_then_eq_ok.mp h
  obtain ⟨requestTokens, -, h⟩ := lift_then_eq_ok.mp h
  obtain ⟨request, -, h⟩ := lift_then_eq_ok.mp h
  obtain ⟨chunks, -, h⟩ := lift_then_eq_ok.mp (observe_then_eq_ok.mp h)
  obtain ⟨-, rfl⟩ := pure_eq_ok.mp h
  obtain ⟨promptTokens, dimensions, candidates, decisions, contextSection, hcandidates, hdecisions,
    hagrees, hadds⟩ := buildExplainable_spec hbuilt
  obtain ⟨prompt, hstarted⟩ :=
    @adds_emitLlmRequestStarted runtime session request requestTokens s₁
  exact ⟨promptTokens, dimensions, candidates, decisions, contextSection, built.context.text,
    requestTokens, prompt, hcandidates, hdecisions, hagrees, hadds.trans hstarted⟩

/-- The run ends with the completed event, which is recorded with the end. -/
theorem consume_spec {events : List (Except QueryError QueryEvent)} {result : QueryResult}
    (hterminal : s.terminalStarted = false)
    (h : runtime.consume (some session) events s = (.ok result, s'))
    (hdelivered : s'.deliveryFailureCount = 0) :
    s.deliveryFailureCount = 0 ∧ ∃ inputTokens outputTokens,
      s'.records.map entry = s.records.map entry ++
        [(session.llm, some session.rootSpan, .llmRequestCompleted runtime.completionModelId
            inputTokens outputTokens session.llmElapsed (session.content result.response)),
          (session.rootSpan, none, .runCompleted session.runElapsed)] := by
  induction events with
  | nil =>
    obtain ⟨hlift, -⟩ := Prod.mk.inj (observe_then_eq_ok.mp h)
    cases hlift
  | cons event events ih =>
    have h := observe_then_eq_ok.mp h
    obtain ⟨event, rfl, h⟩ := lift_then_eq_ok.mp h
    cases event with
    | context context => exact ih h
    | token content => exact ih h
    | completed completed =>
      obtain ⟨rfl, rfl⟩ := pure_eq_ok.mp h
      obtain ⟨inputTokens, outputTokens, hadds⟩ :=
        @adds_emitLlmCompleted runtime session completed s
      have hfinish := finishSuccess_records (hadds.terminalStarted.trans hterminal) hdelivered
      have hrecords := hadds.delivered hfinish.1
      refine ⟨hrecords.1, inputTokens, outputTokens, ?_⟩
      calc _ = (runtime.emitLlmCompleted completed session s).records.map entry ++ _ := hfinish.2
        _ = _ := by rw [hrecords.2, List.append_assoc, List.singleton_append]

/-- A completed run that has lost nothing has recorded a trace. -/
theorem run_entries {result : QueryResult}
    (h : runtime.run query responseType session = (.ok result, s))
    (hdelivered : s.deliveryFailureCount = 0) :
    ∃ trace : BasicTrace, s.records.map entry = trace.entries session query := by
  obtain ⟨events, s₁, hevents, hconsume⟩ := bind_eq_ok.mp h
  have hprepare : runtime.prepareBasicStream query responseType (some session)
      (session.start query Session.new) = (.ok events, s₁) := by
    unfold basicSearchStreaming at hevents
    split at hevents
    · next hprepare => exact hprepare.trans hevents
    · cases hevents
  obtain ⟨promptTokens, dimensions, candidates, decisions, contextSection, contextText,
    requestTokens, prompt, hcandidates, hdecisions, hagrees, hadds⟩ :=
    prepareBasicStream_spec hprepare
  have hall := (adds_start query Session.new).trans hadds
  obtain ⟨hmiddle, inputTokens, outputTokens, hrecords⟩ :=
    consume_spec hall.terminalStarted hconsume hdelivered
  refine ⟨⟨runtime.basicContext.embeddingModelId, promptTokens, dimensions, candidates, decisions,
    contextSection, contextText, runtime.completionModelId, requestTokens, prompt, inputTokens,
    outputTokens, session.llmElapsed, session.content result.response, hcandidates, hdecisions,
    hagrees⟩, ?_⟩
  rw [hrecords, (hall.delivered hmiddle).2]
  simp [BasicTrace.entries, BasicTrace.queryEntries, BasicTrace.answerEntries, Session.new]

end Run

end GraphLoom.Query.Basic
