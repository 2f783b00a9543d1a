import GraphLoom.Explainability.LiveHub

/-!
# The event stream

A client asks for the events of a run after the last sequence it has seen.  The endpoint looks the
run up in the store and then builds an `EnvelopeStreamState`, which subscribes to the live hub,
replays the store up to the sequence that was committed at that moment, and goes on with the live
channel; a run without a live channel is replayed to its end.

A step of the whole system is a step of the recorder, with what it does to the hub, or a step of one
client between two points where somebody else can run.
-/

namespace GraphLoom.Explainability

open Foundation
open Function (update)

variable {ε τ κ : Type}

/-- `SSE_REPLAY_PAGE_SIZE`. -/
def sseReplayPageSize : ℕ := 64

/-- Errors of a stream. -/
inductive ExplainabilitySseStreamError where
  | store
  | sequenceInvariant
deriving DecidableEq, Repr

/-- The phase of a stream. -/
inductive StreamPhase where
  -- inside `subscribe`: before the channel is looked up, for the first time or to recover a gap;
  -- then with a receiver, before the committed sequence is read
  | subscribing (first : Bool)
  | subscribed (channel position : ℕ)
  | catchUp (targetSequence : ℕ) (subscription : ExplainabilityLiveSubscription)
  | live (subscription : ExplainabilityLiveSubscription)
  | finalCatchUp
  | doneAfterPending
  | done
deriving DecidableEq

/-- A stream, with the sequence it was asked to start after and what it has yielded. -/
structure EnvelopeStreamState (ε : Type) where
  runId : ExplainabilityRunId
  lastSeenSequence : ℕ
  phase : StreamPhase
  pending : List (ExplainabilityEnvelope ε)
  start : ℕ
  yielded : List (ExplainabilityEnvelope ε)
  /-- How the stream ended: with an error, or without one. -/
  ended : Option (Except ExplainabilitySseStreamError Unit)
deriving DecidableEq

/-- A client of the endpoint. -/
inductive SseClient (ε : Type) where
  | idle
  -- the handler waits for `get_run`
  | requested (id : ExplainabilityRunId) (lastSeenSequence : ℕ)
  | rejected (status : ℕ) (body : String)
  | streaming (stream : EnvelopeStreamState ε)

namespace EnvelopeStreamState

/-- `new`: the stream subscribes first. -/
def new (id : ExplainabilityRunId) (lastSeenSequence : ℕ) : EnvelopeStreamState ε where
  runId := id
  lastSeenSequence := lastSeenSequence
  phase := .subscribing true
  pending := []
  start := lastSeenSequence
  yielded := []
  ended := none

/-- `fail`. -/
def fail (stream : EnvelopeStreamState ε) (error : ExplainabilitySseStreamError) :
    EnvelopeStreamState ε :=
  { stream with phase := .done, pending := [], ended := some (.error error) }

/-- The end without an error. -/
def finish (stream : EnvelopeStreamState ε) : EnvelopeStreamState ε :=
  { stream with phase := .done, ended := some (.ok ()) }

/-- The loop of `load_store_page` over a page. -/
def checkPage (id : ExplainabilityRunId) :
    Option ℕ → List (ExplainabilityEnvelope ε) → Except ExplainabilitySseStreamError Unit
  | _, [] => .ok ()
  | none, _ :: _ => .error .sequenceInvariant
  | some expected, envelope :: rest =>
    if envelope.record.runId ≠ id ∨ envelope.sequence ≠ expected then .error .sequenceInvariant
    else checkPage id (checkedAdd expected 1) rest

/-- The query of `load_store_page`. -/
def pageQuery (stream : EnvelopeStreamState ε) : EventQuery where
  afterSequence := some stream.lastSeenSequence
  limit := sseReplayPageSize

/-- `load_store_page`, from what the store answered: the events it queues, none for `Ok(false)`. -/
def loadStorePage (stream : EnvelopeStreamState ε) :
    Except ExplainabilityStoreError (List (ExplainabilityEnvelope ε)) →
      Except ExplainabilitySseStreamError (List (ExplainabilityEnvelope ε))
  | .error _ => .error .store
  | .ok page =>
    if sseReplayPageSize < page.length then .error .sequenceInvariant
    else if page = [] then .ok []
    else
      match checkedAdd stream.lastSeenSequence 1 with
      | none => .error .sequenceInvariant
      | some expected =>
        match checkPage stream.runId (some expected) page with
        | .error error => .error error
        | .ok () => .ok page

/-- `CatchUp` after a page was asked for. -/
def catchUpPage (stream : EnvelopeStreamState ε)
    (answer : Except ExplainabilityStoreError (List (ExplainabilityEnvelope ε))) :
    EnvelopeStreamState ε :=
  match stream.loadStorePage answer with
  | .error error => stream.fail error
  | .ok [] => stream.fail .sequenceInvariant
  | .ok page => { stream with pending := page }

/-- `FinalCatchUp` after a page was asked for. -/
def finalPage (stream : EnvelopeStreamState ε)
    (answer : Except ExplainabilityStoreError (List (ExplainabilityEnvelope ε))) :
    EnvelopeStreamState ε :=
  match stream.loadStorePage answer with
  | .error error => stream.fail error
  | .ok [] => stream.finish
  | .ok page =>
    if page.length < sseReplayPageSize then
      { stream with pending := page, phase := .doneAfterPending }
    else { stream with pending := page }

/-- `Live` after the receiver gave a result. -/
def received (stream : EnvelopeStreamState ε) :
    Except ExplainabilityLiveRecvError (ExplainabilityEnvelope ε) ×
      ExplainabilityLiveSubscription → EnvelopeStreamState ε
  | (.ok envelope, subscription) =>
    if envelope.record.runId ≠ stream.runId then stream.fail .sequenceInvariant
    else if envelope.sequence ≤ stream.lastSeenSequence then
      { stream with phase := .live subscription }
    else
      match checkedAdd stream.lastSeenSequence 1 with
      | none => stream.fail .sequenceInvariant
      | some expected =>
        if envelope.sequence = expected then
          { stream with
            lastSeenSequence := envelope.sequence
            phase := .live subscription
            yielded := stream.yielded ++ [envelope] }
        else { stream with phase := .subscribing false }
  | (.error (.lagged _), _) => { stream with phase := .subscribing false }
  | (.error .closed, _) => { stream with phase := .finalCatchUp }

end EnvelopeStreamState

/-- `events_handler` after `get_run` answered. -/
def eventsHandler (id : ExplainabilityRunId) (lastSeenSequence : ℕ) :
    Except ExplainabilityStoreError (Option ExplainabilityRun) → SseClient ε
  | .ok (some run) =>
    if run.eventCount < lastSeenSequence then
      .rejected 409 "explainability event cursor is ahead of persisted history"
    else .streaming (.new id lastSeenSequence)
  | .ok none => .rejected 404 "explainability run not found"
  | .error _ => .rejected 500 "explainability service unavailable"

/-- The recorder, the hub it publishes to and the clients of the endpoint. -/
structure SseState (ε τ κ : Type) where
  recorder : RecorderState ε τ
  hub : ExplainabilityLiveHub ε
  clients : κ → SseClient ε

/-- What a read of the store gives: what is stored, or a failure. -/
inductive ReadAnswer {α : Type} (stored : Except ExplainabilityStoreError α) :
    Except ExplainabilityStoreError α → Prop
  | stored : ReadAnswer stored stored
  | failed (error : ExplainabilityStoreError) : ReadAnswer stored (.error error)

/-- Who makes a step; the first look at the hub for a run is told from the rest. -/
inductive SseAction (ε κ : Type) where
  | recorder (action : RecorderAction ε)
  | client (k : κ)
  | subscribe (k : κ) (id : ExplainabilityRunId)

/-- A step of one stream, for a hub whose channels have `ring` slots. -/
inductive StreamStep (ring : ℕ) (store : MemoryState ε) (hub : ExplainabilityLiveHub ε)
    (stream : EnvelopeStreamState ε) : EnvelopeStreamState ε → Prop
  -- the receiver is registered at the end of the channel
  | subscribe (first : Bool) (index : ℕ) (channel : LiveRunChannel ε)
      (at_ : stream.phase = .subscribing first)
      (found : hub.runs.lookup stream.runId = some index)
      (here : hub.channels[index]? = some channel) :
      StreamStep ring store hub stream
        { stream with phase := .subscribed index channel.sent.length }
  | missing (first : Bool) (at_ : stream.phase = .subscribing first)
      (absent : hub.runs.lookup stream.runId = none) :
      StreamStep ring store hub stream { stream with phase := .finalCatchUp }
  | snapshot (index position : ℕ) (channel : LiveRunChannel ε)
      (at_ : stream.phase = .subscribed index position)
      (here : hub.channels[index]? = some channel) :
      StreamStep ring store hub stream
        { stream with
          phase := .catchUp channel.lastSequence ⟨index, channel.lastSequence, position⟩ }
  | popFront (envelope : ExplainabilityEnvelope ε) (rest : List (ExplainabilityEnvelope ε))
      (first : stream.pending = envelope :: rest) :
      StreamStep ring store hub stream
        { stream with
          pending := rest
          lastSeenSequence := envelope.sequence
          yielded := stream.yielded ++ [envelope] }
  | caughtUp (target : ℕ) (subscription : ExplainabilityLiveSubscription)
      (at_ : stream.phase = .catchUp target subscription) (empty : stream.pending = [])
      (reached : target ≤ stream.lastSeenSequence) :
      StreamStep ring store hub stream { stream with phase := .live subscription }
  | catchUp (target : ℕ) (subscription : ExplainabilityLiveSubscription)
      (answer : Except ExplainabilityStoreError (List (ExplainabilityEnvelope ε)))
      (at_ : stream.phase = .catchUp target subscription) (empty : stream.pending = [])
      (behind : stream.lastSeenSequence < target)
      (read : ReadAnswer (store.loadEvents stream.runId stream.pageQuery) answer) :
      StreamStep ring store hub stream (stream.catchUpPage answer)
  | receive (subscription : ExplainabilityLiveSubscription)
      (result : Except ExplainabilityLiveRecvError (ExplainabilityEnvelope ε) ×
        ExplainabilityLiveSubscription)
      (at_ : stream.phase = .live subscription) (empty : stream.pending = [])
      (ready : hub.recv ring subscription = some result) :
      StreamStep ring store hub stream (stream.received result)
  | finalCatchUp (answer : Except ExplainabilityStoreError (List (ExplainabilityEnvelope ε)))
      (at_ : stream.phase = .finalCatchUp) (empty : stream.pending = [])
      (read : ReadAnswer (store.loadEvents stream.runId stream.pageQuery) answer) :
      StreamStep ring store hub stream (stream.finalPage answer)
  | finish (at_ : stream.phase = .doneAfterPending) (empty : stream.pending = []) :
      StreamStep ring store hub stream stream.finish

/-- What a step of a stream is called: a first look at the hub, or anything else. -/
def EnvelopeStreamState.action (stream : EnvelopeStreamState ε) (k : κ) : SseAction ε κ :=
  if stream.phase = .subscribing true then .subscribe k stream.runId else .client k

variable [DecidableEq τ] [DecidableEq κ]

/-- A step of the whole system. -/
inductive SseStep (capacity ring : ℕ) :
    SseState ε τ κ → SseAction ε κ → SseState ε τ κ → Prop
  -- `subscribe` keeps the map entry it found until it has read the committed sequence, so the
  -- entry is not removed in between
  | recorder {s : SseState ε τ κ} (action : RecorderAction ε) (recorder : RecorderState ε τ)
      (step : RecorderStep capacity s.recorder action recorder)
      (unlocked : ∀ id, action = .hubClose id → ∀ k stream index position,
        s.clients k = .streaming stream → stream.phase = .subscribed index position →
        stream.runId ≠ id) :
      SseStep capacity ring s (.recorder action)
        { s with recorder := recorder, hub := s.hub.perform action }
  | request {s : SseState ε τ κ} (k : κ) (id : ExplainabilityRunId) (lastSeenSequence : ℕ)
      (at_ : s.clients k = .idle) :
      SseStep capacity ring s (.client k)
        { s with clients := update s.clients k (.requested id lastSeenSequence) }
  | handle {s : SseState ε τ κ} (k : κ) (id : ExplainabilityRunId) (lastSeenSequence : ℕ)
      (answer : Except ExplainabilityStoreError (Option ExplainabilityRun))
      (at_ : s.clients k = .requested id lastSeenSequence)
      (read : ReadAnswer (s.recorder.store.getRun id) answer) :
      SseStep capacity ring s (.client k)
        { s with clients := update s.clients k (eventsHandler id lastSeenSequence answer) }
  -- a stream that is built without the endpoint starts anywhere
  | open {s : SseState ε τ κ} (k : κ) (id : ExplainabilityRunId) (lastSeenSequence : ℕ)
      (at_ : s.clients k = .idle) :
      SseStep capacity ring s (.client k)
        { s with clients := update s.clients k (.streaming (.new id lastSeenSequence)) }
  | stream {s : SseState ε τ κ} (k : κ) (stream stream' : EnvelopeStreamState ε)
      (at_ : s.clients k = .streaming stream)
      (step : StreamStep ring s.recorder.store s.hub stream stream') :
      SseStep capacity ring s (stream.action k)
        { s with clients := update s.clients k (.streaming stream') }

/-- A new recorder, an empty hub and no clients yet. -/
def SseState.new : SseState ε τ κ where
  recorder := .new
  hub := .new
  clients _ := .idle

/-- The system of one recorder, its hub and the clients of the endpoint, for a writer queue of the
given capacity and channels of the given number of slots. -/
def explainabilitySseService (ε τ κ : Type) [DecidableEq τ] [DecidableEq κ] (capacity ring : ℕ) :
    System (SseState ε τ κ) (SseAction ε κ) where
  init s := s = .new
  step := SseStep capacity ring

end GraphLoom.Explainability
