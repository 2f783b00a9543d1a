import GraphLoom.Query.Streaming

/-!
# One story for each query

However a query goes, its session records the same kind of story: its first two records, those of
its stages and, once the client has seen the end of the query, one record that ends the run, behind
which the run is finished and nothing is recorded any more.  The client sees the context, tokens and
one last item, and a query that is answered at once gives the same answer as its stream
(`query_tells_one_story`).
-/

namespace GraphLoom.Query.Streaming

open GraphLoom.Explainability Foundation Llm Streaming.QueryEngine ActiveCompletionStream
open Basic.BasicQueryExplainability (queryErrorKind)
open CompletionState

variable {σ ε κ : Type}

/-! ### What stages record -/

/-- An event that neither opens nor ends a run. -/
def ExplainabilityEvent.IsStage : ExplainabilityEvent ε → Prop
  | .stage _ | .llmRequestStarted .. | .llmRequestCompleted .. | .globalReduceSkipped => True
  | .runStarted .. | .queryStarted .. | .runCompleted _ | .runFailed .. => False

def SinkCall.IsStage : SinkCall ε → Prop
  | .emit record _ => record.event.IsStage
  | .finishRun .. => False

def SinkCall.rejected : SinkCall ε → Bool
  | .emit _ accepted => !accepted
  | .finishRun .. => false

/-- The calls between two states of a session, while its run goes on. -/
structure Recorded (s t : SessionState σ ε) (calls : List (SinkCall ε)) : Prop where
  calls_eq : t.calls = s.calls ++ calls
  stages : ∀ call ∈ calls, call.IsStage
  open_eq : t.terminalStarted = s.terminalStarted
  counted : s.failures + calls.countP SinkCall.rejected ≤ t.failures

namespace Recorded

variable {s t u : SessionState σ ε} {calls calls' : List (SinkCall ε)}

theorem refl (s : SessionState σ ε) : Recorded s s [] where
  calls_eq := (List.append_nil _).symm
  stages _ h := absurd h List.not_mem_nil
  open_eq := rfl
  counted := le_refl _

theorem trans (h : Recorded s t calls) (h' : Recorded t u calls') :
    Recorded s u (calls ++ calls') where
  calls_eq := by rw [h'.calls_eq, h.calls_eq, List.append_assoc]
  stages call hcall := by
    rcases List.mem_append.mp hcall with hcall | hcall
    · exact h.stages call hcall
    · exact h'.stages call hcall
  open_eq := h'.open_eq.trans h.open_eq
  counted := by
    have hfirst := h.counted
    have hsecond := h'.counted
    rw [List.countP_append]
    omega

theorem andThen (h : Recorded s t calls) (h' : ∃ calls', Recorded t u calls') :
    ∃ calls, Recorded s u calls := by
  obtain ⟨calls', h'⟩ := h'
  exact ⟨calls ++ calls', h.trans h'⟩

theorem sidecarFailure (s : SessionState σ ε) : Recorded s s.markSidecarFailure [] where
  calls_eq := (List.append_nil _).symm
  stages _ h := absurd h List.not_mem_nil
  open_eq := rfl
  counted := Nat.le_succ _

theorem convert (s : SessionState σ ε) (value : ℕ) : Recorded s (s.convert value).2 [] := by
  rw [SessionState.convert]
  split
  · exact refl s
  · exact sidecarFailure s

end Recorded

namespace QueryExplainabilitySession

variable (session : QueryExplainabilitySession σ ε)

/-- One record more, whatever the sink says to it. -/
theorem emit_spec (spanId : ExplainabilitySpanId) (parentSpanId : Option ExplainabilitySpanId)
    (event : ExplainabilityEvent ε) (s : SessionState σ ε) :
    ∃ accepted : Bool,
      (session.emit spanId parentSpanId event s).calls =
        s.calls ++ [.emit (session.record s.emissions spanId parentSpanId event) accepted] ∧
      (session.emit spanId parentSpanId event s).terminalStarted = s.terminalStarted ∧
      (session.emit spanId parentSpanId event s).emissions = s.emissions + 1 ∧
      (session.emit spanId parentSpanId event s).failures =
        s.failures + if accepted then 0 else 1 := by
  refine ⟨(session.sink.emit (session.record s.emissions spanId parentSpanId event) s.sink).1, rfl,
    rfl, rfl, ?_⟩
  show (if _ then s.failures else s.failures + 1) = _
  split <;> rfl

theorem recorded_emit {event : ExplainabilityEvent ε} (spanId : ExplainabilitySpanId)
    (parentSpanId : Option ExplainabilitySpanId) (s : SessionState σ ε) (hevent : event.IsStage) :
    ∃ calls, Recorded s (session.emit spanId parentSpanId event s) calls := by
  obtain ⟨accepted, hcalls, hopen, -, hfailures⟩ := session.emit_spec spanId parentSpanId event s
  refine ⟨_, hcalls, fun call hcall => ?_, hopen, ?_⟩
  · obtain rfl := List.mem_singleton.mp hcall
    exact hevent
  · rw [hfailures]
    cases accepted <;> simp [SinkCall.rejected]

theorem recorded_perform (s : SessionState σ ε) (op : SessionOp ε) :
    ∃ calls, Recorded s (session.perform s op) calls := by
  cases op with
  | emit spanId parentSpanId event => exact session.recorded_emit spanId parentSpanId s trivial
  | sidecarFailure => exact ⟨[], Recorded.sidecarFailure s⟩

/-- The stages of a search. -/
theorem recorded_stages (ops : List (SessionOp ε)) (s : SessionState σ ε) :
    ∃ calls, Recorded s (ops.foldl session.perform s) calls := by
  induction ops generalizing s with
  | nil => exact ⟨[], Recorded.refl s⟩
  | cons op ops ih =>
    obtain ⟨calls, hop⟩ := session.recorded_perform s op
    exact hop.andThen (ih (session.perform s op))

/-! ### The end of a run -/

/-- The event that ends a run, after so many failures. -/
def terminalEvent (item : QueryItem κ) (failures : ℕ) : ExplainabilityEvent ε :=
  match item with
  | .error error => .runFailed (queryErrorKind error) session.queryErrorMessage
  | .ok _ =>
    if failures % 2 ^ 64 = 0 ∧ session.runElapsed ≤ u64Max then .runCompleted session.runElapsed
    else deliveryFailedEvent

/-- The failures that converting the time of a run adds to its end. -/
def conversionFailures (item : QueryItem κ) : ℕ :=
  match item with
  | .error _ => 0
  | .ok _ => if session.runElapsed ≤ u64Max then 0 else 1

/-- The last two calls of a run, with the failures that its end adds. -/
structure Ends (s t : SessionState σ ε) (event : ExplainabilityEvent ε) (missed : ℕ) : Prop where
  calls_eq : ∃ emission delivered finalized,
    t.calls = s.calls ++ [.emit (session.record emission session.rootSpan none event) delivered,
      .finishRun session.runId finalized] ∧
    t.failures = s.failures + missed + if delivered then 0 else 1
  closed : t.terminalStarted = true

theorem ends_of_emit {s u : SessionState σ ε} {missed : ℕ} (event : ExplainabilityEvent ε)
    (hcalls : u.calls = s.calls) (hmissed : u.failures = s.failures + missed)
    (hclosed : u.terminalStarted = true) :
    session.Ends s (session.finishRun (session.emit session.rootSpan none event u)) event
      missed := by
  obtain ⟨delivered, hemit, hopen, -, hfailures⟩ :=
    session.emit_spec session.rootSpan none event u
  set v := session.emit session.rootSpan none event u
  refine ⟨⟨u.emissions, delivered, (session.sink.finishRun session.runId v.sink).1, ?_, ?_⟩,
    hopen.trans hclosed⟩
  · show v.calls ++ [_] = _
    rw [hemit, hcalls, List.append_assoc]
    rfl
  · show v.failures = _
    rw [hfailures, hmissed]

theorem ends_finishFailure {s : SessionState σ ε} (hopen : s.terminalStarted = false)
    (errorKind : String) :
    session.Ends s (session.finishFailure errorKind s)
      (.runFailed errorKind session.queryErrorMessage) 0 := by
  rw [finishFailure, beginTerminal, hopen]
  exact session.ends_of_emit _ rfl rfl rfl

theorem finishSuccess_eq {s : SessionState σ ε} (hopen : s.terminalStarted = false)
    {elapsedMs : Option ℕ} {u : SessionState σ ε}
    (h : SessionState.convert { s with terminalStarted := true } session.runElapsed =
      (elapsedMs, u)) :
    session.finishSuccess s = session.finishRun (session.emit session.rootSpan none
      ((if u.deliveryFailureCount = 0 then elapsedMs.map .runCompleted
        else some deliveryFailedEvent).getD deliveryFailedEvent) u) := by
  rw [finishSuccess, beginTerminal, hopen]
  simp only [Bool.false_eq_true, ↓reduceIte, SessionState.durationMillis, h]

/-- A run that ends well is reported so only if nothing was missed. -/
theorem ends_finishSuccess {s : SessionState σ ε} (hopen : s.terminalStarted = false)
    (event : QueryEvent κ) :
    session.Ends s (session.finishSuccess s) (session.terminalEvent (.ok event) s.failures)
      (session.conversionFailures (.ok event : QueryItem κ)) := by
  rw [terminalEvent, conversionFailures]
  by_cases helapsed : session.runElapsed ≤ u64Max
  · rw [session.finishSuccess_eq hopen (if_pos helapsed)]
    have hcount : SessionState.deliveryFailureCount { s with terminalStarted := true } =
      s.failures % 2 ^ 64 := rfl
    simp only [helapsed, and_true, hcount, Option.map_some, ↓reduceIte]
    split <;> exact session.ends_of_emit _ rfl rfl rfl
  · rw [session.finishSuccess_eq hopen (if_neg helapsed), Option.map_none]
    simp only [helapsed, and_false, ↓reduceIte]
    split <;> exact session.ends_of_emit _ rfl rfl rfl

theorem finishFailure_of_closed {s : SessionState σ ε} (hclosed : s.terminalStarted = true)
    (errorKind : String) : session.finishFailure errorKind s = s := by
  rw [finishFailure, beginTerminal, hclosed]
  rfl

end QueryExplainabilitySession

/-! ### What a stream tells -/

/-- An event that does not end a query. -/
def QueryEvent.Continues : QueryEvent κ → Prop
  | .completed _ => False
  | _ => True

/-- The events of a stream and its last item; there is none when the client is left waiting. -/
inductive Tells : QueryEvents κ → List (QueryEvent κ) → Option (QueryItem κ) → Prop
  | waits {events : QueryEvents κ} (h : events.next = .pending) : Tells events [] none
  | completed {events e : QueryEvents κ} {result : QueryResult κ}
      (h : events.next = .ready (some (.ok (.completed result), e))) :
      Tells events [] (some (.ok (.completed result)))
  | failed {events e : QueryEvents κ} {error : QueryError}
      (h : events.next = .ready (some (.error error, e))) :
      Tells events [] (some (.error error))
  | continues {events e : QueryEvents κ} {event : QueryEvent κ} {front : List (QueryEvent κ)}
      {last : Option (QueryItem κ)} (h : events.next = .ready (some (.ok event, e)))
      (hevent : event.Continues) (rest : Tells e front last) :
      Tells events (event :: front) last

/-- The contents of chunks, up to the first error. -/
def contents : List (Except String CompletionChunk) → List String
  | [] | .error _ :: _ => []
  | .ok chunk :: chunks =>
    if chunk.content = "" then contents chunks else chunk.content :: contents chunks

theorem ne_empty_of_mem_contents {chunks : List (Except String CompletionChunk)} {token : String}
    (h : token ∈ contents chunks) : token ≠ "" := by
  induction chunks with
  | nil => cases h
  | cons chunk chunks ih =>
    cases chunk with
    | error message => cases h
    | ok chunk =>
      rw [contents] at h
      split at h
      · exact ih h
      · next hcontent =>
        rcases List.mem_cons.mp h with rfl | h
        · exact hcontent
        · exact ih h

/-- The last item of an answer, of which a part is there. -/
def lastItem (configured : CompletionStreamState κ) (response : String) :
    List (Except String CompletionChunk) → Option (QueryItem κ)
  | [] =>
    if configured.provider.ends then
      some (ActiveCompletionStream.completedEvent configured response)
    else none
  | .ok chunk :: chunks => lastItem configured (response ++ chunk.content) chunks
  | .error message :: _ =>
    some (.error (.queryCompletion configured.method configured.consumeOperation
      configured.completionModelId message))

section Answers

variable (configured : CompletionStreamState κ)

/-- The provider of a stream that has come so far. -/
def CompletionStreamState.behind (chunks : List (Except String CompletionChunk)) :
    CompletionStreamState κ :=
  { configured with provider := { configured.provider with chunks } }

theorem nextChunk_behind (ahead : List (Except String CompletionChunk)) (response : String)
    (chunks : List (Except String CompletionChunk)) :
    nextChunk (configured.behind ahead) response chunks =
      nextChunk configured response chunks := by
  induction chunks with
  | nil => rfl
  | cons chunk chunks ih =>
    cases chunk with
    | error message => rfl
    | ok chunk =>
      rw [nextChunk, nextChunk, ih]
      rfl

theorem next_behind (response : String) (chunks : List (Except String CompletionChunk)) :
    nextEvent (some ⟨configured.behind chunks, response, false⟩) =
      nextChunk configured response chunks :=
  nextChunk_behind configured chunks response chunks

theorem Tells.congr {events events' : QueryEvents κ} (hnext : events.next = events'.next)
    {front : List (QueryEvent κ)} {last : Option (QueryItem κ)} (h : Tells events front last) :
    Tells events' front last := by
  cases h with
  | waits h => exact .waits (hnext ▸ h)
  | completed h => exact .completed (hnext ▸ h)
  | failed h => exact .failed (hnext ▸ h)
  | continues h hevent rest => exact .continues (hnext ▸ h) hevent rest

theorem tells_chunks (chunks : List (Except String CompletionChunk)) (response : String) :
    Tells (.completion (some ⟨configured.behind chunks, response, false⟩))
      ((contents chunks).map .token) (lastItem configured response chunks) := by
  induction chunks generalizing response with
  | nil =>
    have hnext := next_behind configured response []
    rw [nextChunk] at hnext
    rw [lastItem]
    split
    · next hends =>
      rw [if_pos hends] at hnext
      cases hlast : completedEvent configured response with
      | error error =>
        rw [hlast] at hnext
        exact .failed (e := .completion none) (by rw [QueryEvents.next, hnext])
      | ok event =>
        rw [hlast] at hnext
        obtain ⟨result, rfl⟩ : ∃ result, event = .completed result := by
          rw [completedEvent] at hlast
          split at hlast
          · cases hlast
          · exact ⟨_, (Except.ok.inj hlast).symm⟩
        exact .completed (e := .completion none) (by rw [QueryEvents.next, hnext])
    · next hends =>
      rw [if_neg hends] at hnext
      exact .waits (by rw [QueryEvents.next, hnext])
  | cons chunk chunks ih =>
    have hnext := next_behind configured response (chunk :: chunks)
    cases chunk with
    | error message =>
      rw [nextChunk] at hnext
      exact .failed (e := .completion none) (by rw [QueryEvents.next, hnext])
    | ok chunk =>
      rw [nextChunk] at hnext
      rw [contents, lastItem]
      by_cases hcontent : chunk.content = ""
      · -- a chunk without content is passed over
        rw [if_pos hcontent] at hnext ⊢
        rw [hcontent, String.append_empty]
        refine Tells.congr ?_ (ih response)
        rw [QueryEvents.next, QueryEvents.next, hnext, next_behind]
      · rw [if_neg hcontent] at hnext ⊢
        refine .continues (e := .completion (some ⟨configured.behind chunks,
          response ++ chunk.content, false⟩)) ?_ trivial (ih _)
        rw [QueryEvents.next, hnext]
        rfl

/-- The answer of a model: the context, the contents of its chunks and how they end. -/
theorem completionEventStream_tells :
    Tells (completionEventStream configured)
      (.context configured.context :: (contents configured.provider.chunks).map .token)
      (lastItem configured "" configured.provider.chunks) :=
  .continues rfl trivial (tells_chunks configured configured.provider.chunks "")

/-- A completed answer is what the client has seen of it. -/
theorem completed_of_lastItem {chunks : List (Except String CompletionChunk)} {response : String}
    {result : QueryResult κ}
    (h : lastItem configured response chunks = some (.ok (.completed result))) :
    result.response = response ++ String.join (contents chunks) ∧
      result.context = configured.context := by
  induction chunks generalizing response with
  | nil =>
    rw [lastItem] at h
    split at h
    · rw [completedEvent] at h
      split at h
      · cases Option.some.inj h
      · obtain rfl := QueryEvent.completed.inj (Except.ok.inj (Option.some.inj h))
        exact ⟨String.append_empty.symm, rfl⟩
    · cases h
  | cons chunk chunks ih =>
    cases chunk with
    | error message => cases Option.some.inj h
    | ok chunk =>
      rw [lastItem] at h
      refine ⟨?_, (ih h).2⟩
      rw [(ih h).1, contents]
      split
      · next hcontent => rw [hcontent, String.append_empty]
      · rw [String.join_cons, String.append_assoc]

end Answers

/-! ### What a session records of a stream -/

theorem recorded_emitLlmCompletedWith (session : QueryExplainabilitySession σ ε)
    (completionModelId : String) (promptTokens outputTokens : ℕ) (response : String)
    (s : SessionState σ ε) :
    ∃ calls, Recorded s
      (emitLlmCompletedWith session completionModelId promptTokens outputTokens response s)
      calls := by
  have hinput := Recorded.convert s promptTokens
  have houtput := hinput.trans (Recorded.convert (s.convert promptTokens).2 outputTokens)
  have helapsed := houtput.trans
    (Recorded.convert ((s.convert promptTokens).2.convert outputTokens).2 session.llmElapsed)
  rw [emitLlmCompletedWith]
  simp only [SessionState.usizeToU64, SessionState.durationMillis]
  split
  · exact helapsed.andThen (session.recorded_emit _ _ _ trivial)
  · exact ⟨_, helapsed⟩

theorem recorded_emitLlmCompletedLocal (session : QueryExplainabilitySession σ ε)
    (completionModelId : String) (result : QueryResult κ) (s : SessionState σ ε) :
    ∃ calls, Recorded s (emitLlmCompletedLocal session completionModelId result s) calls := by
  rw [emitLlmCompletedLocal]
  simp only [SessionState.usizeToU64, SessionState.durationMillis]
  split
  · exact ⟨[], Recorded.sidecarFailure s⟩
  · next usage _ =>
    have hinput := Recorded.convert s usage.promptTokens
    split
    · next h => exact ⟨[], by rwa [h] at hinput⟩
    · next u h =>
      rw [h] at hinput
      have houtput := hinput.trans (Recorded.convert u usage.outputTokens)
      split
      · next h => exact ⟨[], by rwa [h] at houtput⟩
      · next v h =>
        rw [h] at houtput
        have helapsed := houtput.trans (Recorded.convert v session.llmElapsed)
        split
        · next h => exact ⟨[], by rwa [h] at helapsed⟩
        · next w h =>
          rw [h] at helapsed
          exact helapsed.andThen (session.recorded_emit _ _ w trivial)

theorem CompletionState.recorded_emitLlmCompleted (state : CompletionState κ)
    (result : QueryResult κ) (session : QueryExplainabilitySession σ ε) (s : SessionState σ ε) :
    ∃ calls, Recorded s (state.emitLlmCompleted result session s) calls := by
  rw [emitLlmCompleted]
  split
  · rw [emitLlmCompletedBasic]
    split
    · exact ⟨[], Recorded.sidecarFailure s⟩
    · exact recorded_emitLlmCompletedWith ..
  · exact recorded_emitLlmCompletedLocal ..
  · rw [emitLlmCompletedGlobal]
    split
    · split
      · exact ⟨[], Recorded.sidecarFailure s⟩
      · exact recorded_emitLlmCompletedWith ..
    · exact ⟨[], Recorded.refl s⟩

/-- What the last item of a stream does to the session. -/
def CompletionState.close (state : CompletionState κ) (item : QueryItem κ)
    (session : QueryExplainabilitySession σ ε) (s : SessionState σ ε) : SessionState σ ε :=
  match item with
  | .error error => session.finishQueryError error s
  | .ok (.completed result) => session.finishSuccess (state.emitLlmCompleted result session s)
  | .ok _ => s

/-- The answer that an item is. -/
def answer : QueryItem κ → Option (Except QueryError (QueryResult κ))
  | .error error => some (.error error)
  | .ok (.completed result) => some (.ok result)
  | .ok _ => none

section Polls

variable {session : Option (QueryExplainabilitySession σ ε)} {state : CompletionState κ}
  {front : List (QueryEvent κ)} {last : Option (QueryItem κ)}

/-- A client sees the events of the stream one by one. -/
theorem polls_eq (h : Tells state.events front last) (count : ℕ) (s : SessionState σ ε) :
    polls session count (some state) s =
      if count ≤ front.length then ((front.take count).map .ok, s)
      else
        (front.map .ok ++ last.toList,
          last.elim s fun item => observe session (state.close item) s) := by
  obtain ⟨events, method, completionModelId, reduces⟩ := state
  simp only at h
  induction h generalizing count with
  | waits h =>
    cases count with
    | zero => rfl
    | succ count => simp [polls, nextCompletionEvent, h]
  | completed h =>
    cases count with
    | zero => rfl
    | succ count =>
      cases count <;> cases session <;>
        simp [polls, nextCompletionEvent, h, observe, close,
          emitLlmCompleted]
  | failed h =>
    cases count with
    | zero => rfl
    | succ count =>
      cases count <;> cases session <;>
        simp [polls, nextCompletionEvent, h, observe, close]
  | @continues events events' event front last h hevent rest ih =>
    cases count with
    | zero => rfl
    | succ count =>
      have hnext : nextCompletionEvent session
          (some ⟨events, method, completionModelId, reduces⟩) s =
          (.ready (some (.ok event, some ⟨events', method, completionModelId, reduces⟩)), s) := by
        cases event with
        | completed result => exact hevent.elim
        | context _ | token _ => simp only [nextCompletionEvent, h]
      rw [polls, hnext]
      simp only [ih count, List.length_cons, Nat.add_le_add_iff_right]
      split
      · rw [List.take_succ_cons, List.map_cons]
      · rfl

variable (session) in
/-- A stream that is taken to its end has the answer in its last item. -/
theorem aggregate_eq (h : Tells state.events front last) (method : ExplainedMethod) {count : ℕ}
    (hcount : front.length < count) (s : SessionState σ ε) :
    aggregate method session count (some state) s =
      (last.bind answer, last.elim s fun item => observe session (state.close item) s) := by
  obtain ⟨events, method', completionModelId, reduces⟩ := state
  simp only at h
  induction h generalizing count with
  | waits h =>
    obtain ⟨count, rfl⟩ := Nat.exists_eq_add_one_of_ne_zero (Nat.ne_zero_of_lt hcount)
    simp [aggregate, nextCompletionEvent, h]
  | completed h =>
    obtain ⟨count, rfl⟩ := Nat.exists_eq_add_one_of_ne_zero (Nat.ne_zero_of_lt hcount)
    cases session <;>
      simp [aggregate, nextCompletionEvent, h, observe, close,
        answer, emitLlmCompleted]
  | failed h =>
    obtain ⟨count, rfl⟩ := Nat.exists_eq_add_one_of_ne_zero (Nat.ne_zero_of_lt hcount)
    cases session <;>
      simp [aggregate, nextCompletionEvent, h, observe, close,
        answer]
  | @continues events events' event front last h hevent rest ih =>
    obtain ⟨count, rfl⟩ := Nat.exists_eq_add_one_of_ne_zero (Nat.ne_zero_of_lt hcount)
    rw [List.length_cons] at hcount
    rw [aggregate]
    cases event with
    | completed result => exact hevent.elim
    | context _ | token _ =>
      simp only [nextCompletionEvent, h]
      exact ih (Nat.lt_of_add_lt_add_right hcount)

end Polls

/-! ### The story of a query -/

variable {item : QueryItem κ}

namespace QueryExplainabilitySession

variable (session : QueryExplainabilitySession σ ε)

/-- The calls of a session that is asked `query`, before its end. -/
def Opens (query : String) (calls : List (SinkCall ε)) : Prop :=
  ∃ first second stages,
    calls = .emit (session.record 0 session.rootSpan none
        (.runStarted .query session.contentMode)) first ::
      .emit (session.record 1 session.rootSpan none
        (.queryStarted session.method (session.content query))) second :: stages ∧
    ∀ call ∈ stages, call.IsStage

/-- The calls that the last item of a query adds to these, up to the last state `t` of the session:
some of its stages, the record that ends the run, and the end itself.  The record says how many
failures the session has counted before it, and every rejected record is one. -/
def Closes (item : QueryItem κ) (opening closing : List (SinkCall ε)) (t : SessionState σ ε) :
    Prop :=
  ∃ stages emission delivered finalized failures,
    closing = stages ++ [.emit (session.record emission session.rootSpan none
        (session.terminalEvent item failures)) delivered, .finishRun session.runId finalized] ∧
    (∀ call ∈ stages, call.IsStage) ∧
    (opening ++ stages).countP SinkCall.rejected ≤ failures ∧
    t.failures = failures + session.conversionFailures item + (if delivered then 0 else 1) ∧
    t.calls = opening ++ closing

/-- A session that goes on. -/
structure IsOpen (query : String) (s : SessionState σ ε) : Prop where
  opens : session.Opens query s.calls
  terminal : s.terminalStarted = false
  counted : s.calls.countP SinkCall.rejected ≤ s.failures

variable {session} {query : String} {s t : SessionState σ ε} {calls : List (SinkCall ε)}

theorem IsOpen.recorded (h : session.IsOpen query s) (hrecorded : Recorded s t calls) :
    session.IsOpen query t where
  opens := by
    obtain ⟨first, second, stages, hcalls, hstages⟩ := h.opens
    refine ⟨first, second, stages ++ calls, ?_, fun call hcall => ?_⟩
    · rw [hrecorded.calls_eq, hcalls]
      rfl
    · rcases List.mem_append.mp hcall with hcall | hcall
      · exact hstages call hcall
      · exact hrecorded.stages call hcall
  terminal := hrecorded.open_eq.trans h.terminal
  counted := by
    have hbefore := h.counted
    have hbetween := hrecorded.counted
    rw [hrecorded.calls_eq, List.countP_append]
    omega

/-- The first two records. -/
theorem isOpen_emitStart (session : QueryExplainabilitySession σ ε) (query : String) (sink : σ) :
    session.IsOpen query (session.emitStart query (.new sink)) := by
  rw [emitStart]
  set s : SessionState σ ε := .new sink
  obtain ⟨first, hcalls, hopen, hemissions, hfailures⟩ :=
    session.emit_spec session.rootSpan none (.runStarted .query session.contentMode) s
  set t := session.emit session.rootSpan none (.runStarted .query session.contentMode) s
  obtain ⟨second, hcalls', hopen', -, hfailures'⟩ := session.emit_spec session.rootSpan none
    (.queryStarted session.method (session.content query)) t
  refine ⟨⟨first, second, [], ?_, fun _ h => absurd h List.not_mem_nil⟩, hopen'.trans hopen, ?_⟩
  · rw [hcalls', hcalls, hemissions]
    rfl
  · have hnew : s.calls = [] := rfl
    rw [hcalls', hcalls, hfailures', hfailures, hnew]
    cases first <;> cases second <;> simp [SinkCall.rejected]

theorem IsOpen.closes {event : ExplainabilityEvent ε}
    (h : session.IsOpen query s) (hrecorded : Recorded s t calls) {u : SessionState σ ε}
    (hends : session.Ends t u event (session.conversionFailures item))
    (hevent : event = session.terminalEvent item t.failures) :
    (∃ closing, session.Closes item s.calls closing u) ∧ u.terminalStarted = true := by
  obtain ⟨emission, delivered, finalized, hcalls, hfailures⟩ := hends.calls_eq
  refine ⟨⟨_, calls, emission, delivered, finalized, t.failures, rfl, hrecorded.stages, ?_,
    hfailures, ?_⟩, hends.closed⟩
  · rw [← hrecorded.calls_eq]
    exact (h.recorded hrecorded).counted
  · rw [hcalls, hrecorded.calls_eq, hevent, List.append_assoc]

/-- The last item of a stream ends the run. -/
theorem IsOpen.close (h : session.IsOpen query s) (state : CompletionState κ)
    (hitem : (answer item).isSome) :
    (∃ closing, session.Closes item s.calls closing (state.close item session s)) ∧
      (state.close item session s).terminalStarted = true := by
  match item with
  | .error error =>
    exact h.closes (Recorded.refl s) (session.ends_finishFailure h.terminal _) rfl
  | .ok (.completed result) =>
    obtain ⟨calls, hrecorded⟩ := state.recorded_emitLlmCompleted result session s
    exact h.closes hrecorded
      (session.ends_finishSuccess (h.recorded hrecorded).terminal (.completed result)) rfl
  | .ok (.context _) => cases hitem
  | .ok (.token _) => cases hitem

end QueryExplainabilitySession

theorem Tells.isSome_answer {events : QueryEvents κ} {front : List (QueryEvent κ)}
    {last : Option (QueryItem κ)} (h : Tells events front last)
    (hlast : last = some item) : (answer item).isSome := by
  induction h with
  | waits h => cases hlast
  | completed h =>
    obtain rfl := Option.some.inj hlast
    rfl
  | failed h =>
    obtain rfl := Option.some.inj hlast
    rfl
  | continues h hevent rest ih => exact ih hlast

/-- What the stream of a search tells: a context, tokens, and a last item. -/
structure TellsAnswer (state : CompletionState κ) (context : κ) (tokens : List String)
    (last : Option (QueryItem κ)) : Prop where
  tells : Tells state.events (.context context :: tokens.map .token) last
  nonempty : ∀ token ∈ tokens, token ≠ ""
  completed : ∀ event, last = some (.ok event) → ∃ result, event = .completed result ∧
    result.response = String.join tokens ∧ result.context = context

theorem tellsAnswer_completion {state : CompletionState κ} {configured : CompletionStreamState κ}
    (h : state.events = completionEventStream configured) :
    TellsAnswer state configured.context (contents configured.provider.chunks)
      (lastItem configured "" configured.provider.chunks) where
  tells := h ▸ completionEventStream_tells configured
  nonempty _ := ne_empty_of_mem_contents
  completed event hlast := by
    have hanswer := (h ▸ completionEventStream_tells configured).isSome_answer hlast
    cases event with
    | completed result =>
      obtain ⟨hresponse, hcontext⟩ := completed_of_lastItem configured hlast
      exact ⟨result, rfl, hresponse.trans String.empty_append, hcontext⟩
    | context _ | token _ => cases hanswer

namespace QueryRuntime

variable {session : QueryExplainabilitySession σ ε} {query : String} {s : SessionState σ ε}

theorem tellsAnswer_noData (runtime : QueryRuntime κ ε) (prepared : PreparedQuery κ) :
    ∃ result, TellsAnswer (runtime.completionState (runtime.noDataStream prepared) false)
      prepared.context [noDataAnswer] (some (.ok (.completed result))) := by
  refine ⟨_, .continues rfl trivial (.continues rfl trivial (.completed rfl)), ?_, ?_⟩
  · intro token htoken
    obtain rfl := List.mem_singleton.mp htoken
    decide
  · rintro _ ⟨⟩
    exact ⟨_, rfl, rfl, rfl⟩

/-- Up to its stream a search leaves the run open. -/
theorem prepareStream_spec (runtime : QueryRuntime κ ε) (h : session.IsOpen query s) :
    ∃ t, session.IsOpen query t ∧
      ((∃ error, runtime.prepareStream (some session) s = (.error error, t)) ∨
        ∃ state context tokens last, TellsAnswer state context tokens last ∧
          runtime.prepareStream (some session) s = (.ok state, t)) := by
  obtain ⟨calls, hstages⟩ := session.recorded_stages runtime.stages.1 s
  have hopen := h.recorded hstages
  rw [prepareStream]
  cases runtime.stages.2 with
  | error error => exact ⟨_, hopen, Or.inl ⟨error, rfl⟩⟩
  | ok prepared =>
    simp only [observe]
    cases prepared.request with
    | none =>
      obtain ⟨calls', hskipped⟩ := session.recorded_emit session.llm (some session.rootSpan)
        (runtime.stages.1.foldl session.perform s)
        (show (ExplainabilityEvent.globalReduceSkipped : ExplainabilityEvent ε).IsStage from trivial)
      obtain ⟨result, htells⟩ := tellsAnswer_noData runtime prepared
      exact ⟨_, hopen.recorded hskipped, Or.inr ⟨_, _, _, _, htells, rfl⟩⟩
    | some request =>
      obtain ⟨request, promptTokens⟩ := request
      dsimp only
      have hstarted : ∃ calls, Recorded (runtime.stages.1.foldl session.perform s)
          (runtime.emitLlmStarted request promptTokens session
            (runtime.stages.1.foldl session.perform s)) calls := by
        have htokens := Recorded.convert (runtime.stages.1.foldl session.perform s) promptTokens
        rw [emitLlmStarted]
        simp only [SessionState.usizeToU64]
        split
        · next hconvert => exact ⟨[], by rwa [hconvert] at htokens⟩
        · next hconvert =>
          rw [hconvert] at htokens
          exact htokens.andThen (session.recorded_emit _ _ _ trivial)
      obtain ⟨calls', hstarted⟩ := hstarted
      cases runtime.stream request with
      | error message => exact ⟨_, hopen.recorded hstarted, Or.inl ⟨_, rfl⟩⟩
      | ok provider =>
        exact ⟨_, hopen.recorded hstarted, Or.inr ⟨_, _, _, _, tellsAnswer_completion rfl, rfl⟩⟩

end QueryRuntime

/-- A run that is ended is not ended again. -/
theorem finishGraphloomError_of_closed (session : QueryExplainabilitySession σ ε)
    (error : QueryError) {s : SessionState σ ε} (h : s.terminalStarted = true) :
    session.finishGraphloomError error s = s :=
  session.finishFailure_of_closed h _

section Stories

variable (options : QueryOptions κ σ ε) (session : QueryExplainabilitySession σ ε) (sink : σ)

/-- A query that fails before it has a stream. -/
def FailsEarly (opening : List (SinkCall ε)) : Prop :=
  ∃ error closing t, session.Closes (.error error : QueryItem κ) opening closing t ∧
    QueryEngine.queryStream options sink = (.error error, t) ∧
    ∀ limit, QueryEngine.query options limit sink = (some (.error error), t)

/-- A query with a stream, for every client that polls it some times, and for the one that takes the
answer at once. -/
structure Streams (opening : List (SinkCall ε)) (state : CompletionState κ)
    (s : SessionState σ ε) (front : List (QueryEvent κ)) (last : Option (QueryItem κ)) : Prop where
  stream : QueryEngine.queryStream options sink = (.ok state, s)
  calls_eq : s.calls = opening
  /-- Nothing is recorded before the end. -/
  early : ∀ count ≤ front.length,
    polls (some session) count (some state) s = ((front.take count).map .ok, s)
  waits : last = none → ∀ count, front.length < count →
    polls (some session) count (some state) s = (front.map .ok, s) ∧
      QueryEngine.query options count sink = (none, s)
  /-- The end is recorded once, and nothing comes behind it. -/
  ends : ∀ item, last = some item → ∃ closing t,
    session.Closes item opening closing t ∧
      ∀ count, front.length < count →
        polls (some session) count (some state) s = (front.map .ok ++ [item], t) ∧
          QueryEngine.query options count sink = (answer item, t)

variable {options session}

section

variable (hsession : options.session = some session)
include hsession

theorem failsEarly_of_runtime {error : QueryError} (h : options.runtime = .error error) :
    FailsEarly options session sink (start options sink).calls := by
  have hopen := session.isOpen_emitStart options.query sink
  have hstart : start options sink = session.emitStart options.query (.new sink) := by
    rw [start, hsession]
    rfl
  obtain ⟨⟨closing, hcloses⟩, -⟩ := hopen.closes (Recorded.refl _)
    (session.ends_finishFailure hopen.terminal (queryErrorKind error))
    (show _ = session.terminalEvent (.error error : QueryItem κ) _ from rfl)
  rw [hstart]
  refine ⟨error, closing, _, hcloses, ?_, fun limit => ?_⟩
  · rw [queryStream, queryStreamInner, h, hsession, hstart]
    rfl
  · rw [query, queryInner, h, hsession, hstart]
    rfl

theorem query_of_stream {runtime : QueryRuntime κ ε} (hruntime : options.runtime = .ok runtime)
    {state : CompletionState κ} {s : SessionState σ ε}
    (hstream : runtime.searchStreaming (some session) (start options sink) =
      (.ok state, s)) {front : List (QueryEvent κ)} {last : Option (QueryItem κ)}
    (htells : Tells state.events front last)
    (hclosed : ∀ item, last = some item → (state.close item session s).terminalStarted = true)
    {count : ℕ} (hcount : front.length < count) :
    query options count sink =
      (last.bind answer, last.elim s fun item => state.close item session s) := by
  have haggregate := aggregate_eq (some session) htells options.method hcount s
  rw [query, queryInner, hruntime, hsession]
  simp only [hstream, haggregate]
  cases last with
  | none => rfl
  | some item =>
    have hitem := hclosed item rfl
    match item with
    | .error error =>
      have hagain := finishGraphloomError_of_closed session error hitem
      show (some (Except.error error),
        session.finishGraphloomError error (state.close (.error error) session s)) = _
      rw [hagain]
      rfl
    | .ok (.completed result) => rfl
    | .ok (.context _) => cases htells.isSome_answer rfl
    | .ok (.token _) => cases htells.isSome_answer rfl

theorem streams_of_tells {runtime : QueryRuntime κ ε} (hruntime : options.runtime = .ok runtime)
    {state : CompletionState κ} {s : SessionState σ ε}
    (hstream : runtime.searchStreaming (some session) (start options sink) =
      (.ok state, s)) (hopen : session.IsOpen options.query s) {front : List (QueryEvent κ)}
    {last : Option (QueryItem κ)} (htells : Tells state.events front last) :
    Streams options session sink s.calls state s front last := by
  have hclosed : ∀ item, last = some item →
      (state.close item session s).terminalStarted = true := by
    intro item hlast
    exact (hopen.close state (htells.isSome_answer hlast)).2
  refine ⟨?_, rfl, fun count hcount => ?_, ?_, ?_⟩
  · rw [queryStream, queryStreamInner, hruntime, hsession]
    simp only [hstream]
  · rw [polls_eq htells, if_pos hcount]
  · rintro rfl count hcount
    refine ⟨?_, query_of_stream sink hsession hruntime hstream htells hclosed hcount⟩
    rw [polls_eq htells, if_neg (Nat.not_le_of_lt hcount)]
    simp
  · rintro item rfl
    obtain ⟨⟨closing, hcloses⟩, -⟩ := hopen.close state (htells.isSome_answer rfl)
    refine ⟨closing, _, hcloses, fun count hcount => ⟨?_,
      query_of_stream sink hsession hruntime hstream htells hclosed hcount⟩⟩
    rw [polls_eq htells, if_neg (Nat.not_le_of_lt hcount)]
    rfl

end

/-- **Every query tells one story**: for every behaviour of its stages, its sink, its provider and
its client. -/
theorem query_tells_one_story (hsession : options.session = some session) :
    ∃ opening, session.Opens options.query opening ∧
      (FailsEarly options session sink opening ∨
        ∃ state s context tokens last, (∀ token ∈ tokens, token ≠ "") ∧
          (∀ event, last = some (.ok event) → ∃ result, event = .completed result ∧
            result.response = String.join tokens ∧ result.context = context) ∧
          Streams options session sink opening state s (.context context :: tokens.map .token)
            last) := by
  have hopen := session.isOpen_emitStart options.query sink
  have hstart : QueryEngine.start options sink = session.emitStart options.query (.new sink) := by
    rw [QueryEngine.start, hsession]
    rfl
  rw [← hstart] at hopen
  cases hruntime : options.runtime with
  | error error =>
    exact ⟨_, hopen.opens, Or.inl (failsEarly_of_runtime sink hsession hruntime)⟩
  | ok runtime =>
    obtain ⟨t, hopen', hprepare⟩ := runtime.prepareStream_spec hopen
    refine ⟨t.calls, hopen'.opens, ?_⟩
    rcases hprepare with ⟨error, hprepare⟩ | ⟨state, context, tokens, last, htells, hprepare⟩
    · left
      -- the search ends the run, and the engine finds it ended
      obtain ⟨⟨closing, hcloses⟩, hclosed⟩ := hopen'.closes (Recorded.refl _)
        (session.ends_finishFailure hopen'.terminal (queryErrorKind error))
        (show _ = session.terminalEvent (.error error : QueryItem κ) _ from rfl)
      have hagain : session.finishGraphloomError error (session.finishQueryError error t) =
          session.finishQueryError error t := finishGraphloomError_of_closed session error hclosed
      have hsearch : runtime.searchStreaming (some session) (QueryEngine.start options sink) =
          (.error error, session.finishQueryError error t) := by
        rw [QueryRuntime.searchStreaming, hprepare]
        rfl
      refine ⟨error, closing, _, hcloses, ?_, fun limit => ?_⟩
      · rw [QueryEngine.queryStream, QueryEngine.queryStreamInner, hruntime, hsession]
        simp only [hsearch, observe, hagain]
        rfl
      · rw [QueryEngine.query, QueryEngine.queryInner, hruntime, hsession]
        simp only [hsearch, observe, hagain]
        rfl
    · right
      have hsearch : runtime.searchStreaming (some session) (QueryEngine.start options sink) =
          (.ok state, t) := by
        rw [QueryRuntime.searchStreaming, hprepare]
      exact ⟨state, t, context, tokens, last, htells.nonempty, htells.completed,
        streams_of_tells sink hsession hruntime hsearch hopen' htells.tells⟩

end Stories

/-- A session whose sink accepts the first record only. -/
def sampleSession : QueryExplainabilitySession ℕ Unit where
  runId := ⟨"run-1", rfl⟩
  contentMode := .metadata
  sink := ⟨fun _ records => (decide (records = 0), records + 1), fun _ records => (true, records)⟩
  method := .local
  rootSpan := ⟨"root", rfl⟩
  llm := ⟨"llm", rfl⟩
  now _ := ⟨2026, 1, 1, 0, 0, 0, 0, rfl⟩
  runElapsed := 5
  llmElapsed := 2

/-- A Local query that is answered in two chunks. -/
def sampleOptions : QueryOptions Unit ℕ Unit where
  query := "who?"
  session := some sampleSession
  method := .local
  runtime := .ok {
    method := .local
    stages := ([.sidecarFailure],
      .ok ⟨(), [], some (.new [ChatMessage.system "prompt", ChatMessage.user "who?"], 3)⟩)
    completionModelId := "model"
    tokenizer := .ofMeasure String.length
    stream := fun _ => .ok ⟨[.ok ⟨[some "no"]⟩, .ok ⟨[]⟩, .ok ⟨[some "body"]⟩], true⟩
    asks := by
      intro prepared hprepared hrequest
      obtain rfl := Except.ok.inj hprepared
      cases hrequest
    elapsed := 4 }
  sessionMethod := by
    intro known hknown
    obtain rfl := Option.some.inj hknown
    rfl
  runtimeMethod := by
    intro built hbuilt
    obtain rfl := Except.ok.inj hbuilt
    rfl

/-- The query of a sink that rejects records has a stream. -/
theorem query_tells_one_story_sample : ∃ opening state s context, ∃ tokens : List String, ∃ last,
    sampleSession.Opens "who?" opening ∧
    Streams sampleOptions sampleSession 0 opening state s
      (.context context :: tokens.map .token) last := by
  have hsession : sampleOptions.session = some sampleSession := rfl
  obtain ⟨opening, hopens, hfails | ⟨state, s, context, tokens, last, -, -, hstreams⟩⟩ :=
    query_tells_one_story 0 hsession
  · obtain ⟨error, closing, t, -, hstream, -⟩ := hfails
    cases congrArg Prod.fst hstream
  · exact ⟨opening, state, s, context, tokens, last, hopens, hstreams⟩

end GraphLoom.Query.Streaming
