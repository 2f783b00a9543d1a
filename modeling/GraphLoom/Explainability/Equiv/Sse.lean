import GraphLoom.Explainability.Equiv.LiveHub
import GraphLoom.Explainability.Sse

/-!
# A stream yields every event once and in order

What a stream yields is a run of consecutive stored events from the one it starts after
(`StreamOk.inOrder`): a page continues it because the store is gapless, and a receiver that is not
past the last seen event finds the next one there, or one it has seen.

A stream that finds no channel concludes that the run is over.  That is right whenever the run has
been registered in the hub before, for then its channel was taken away by the recorder; it is wrong
between the creation of the run in the store and its registration (`SseState.Announced`).
-/

namespace GraphLoom.Explainability

open Foundation EnvelopeStreamState
open Function (update)

variable {ε τ κ : Type}

/-! ### Pages of the store -/

/-- The events after a sequence, when the sequences are consecutive from `k + 1`. -/
theorem filter_sequence_eq_drop (after : ℕ) (events : List (ExplainabilityEnvelope ε)) (k : ℕ)
    (h : events.map (·.sequence) = List.range' (k + 1) events.length) :
    events.filter (fun envelope => after < envelope.sequence) = events.drop (after - k) := by
  induction events generalizing k with
  | nil => rw [List.filter_nil, List.drop_nil]
  | cons envelope rest ih =>
    rw [List.map_cons, List.length_cons, List.range'_succ, List.cons.injEq] at h
    have hrest := ih (k + 1) h.2
    by_cases hafter : after ≤ k
    · have hlt : after < envelope.sequence := by omega
      rw [List.filter_cons, ite_cond_eq_true _ _ (eq_true (decide_eq_true hlt)), hrest,
        show after - (k + 1) = 0 by omega, show after - k = 0 by omega, List.drop_zero,
        List.drop_zero]
    · have hle : ¬ after < envelope.sequence := by omega
      have hsub : after - k = after - (k + 1) + 1 := by omega
      rw [List.filter_cons, ite_cond_eq_false _ _ (by simpa using hle), hrest, hsub,
        List.drop_succ_cons]

variable {id : ExplainabilityRunId}

/-- A page of consecutive events of the run passes the check. -/
theorem checkPage_eq_ok (page : List (ExplainabilityEnvelope ε))
    (expected : ℕ) (sequences : page.map (·.sequence) = List.range' expected page.length)
    (owned : ∀ envelope ∈ page, envelope.record.runId = id)
    (bounded : ∀ envelope ∈ page, envelope.sequence ≤ u64Max) :
    checkPage id (some expected) page = .ok () := by
  induction page generalizing expected with
  | nil => rfl
  | cons envelope rest ih =>
    rw [List.map_cons, List.length_cons, List.range'_succ, List.cons.injEq] at sequences
    obtain ⟨hsequence, hrest⟩ := sequences
    have hgood : ¬ (envelope.record.runId ≠ id ∨ envelope.sequence ≠ expected) := by
      rw [not_or, not_not, not_not]
      exact ⟨owned envelope (List.mem_cons_self ..), hsequence⟩
    rw [checkPage, ite_cond_eq_false _ _ (eq_false hgood)]
    cases rest with
    | nil =>
      cases checkedAdd expected 1 <;> rfl
    | cons next rest =>
      have hnext : next.sequence = expected + 1 := by
        rw [List.map_cons, List.length_cons, List.range'_succ, List.cons.injEq] at hrest
        exact hrest.1
      have hbound : next.sequence ≤ u64Max :=
        bounded next (List.mem_cons_of_mem _ (List.mem_cons_self ..))
      rw [checkedAdd_eq_some.mpr ⟨by omega, rfl⟩]
      exact ih (expected + 1) hrest (fun e he => owned e (List.mem_cons_of_mem _ he))
        fun e he => bounded e (List.mem_cons_of_mem _ he)

variable {answer : Except ExplainabilityStoreError (List (ExplainabilityEnvelope ε))}

/-- What a stream gets from the store: the next page of the stored events, or the store's error. -/
theorem loadStorePage_of_read {m : MemoryState ε} (hm : m.Contract)
    (bounded : ∀ id, ∀ envelope ∈ m.eventsOf id, envelope.sequence ≤ u64Max)
    (stream : EnvelopeStreamState ε)
    (read : ReadAnswer (m.loadEvents stream.runId stream.pageQuery) answer) :
    stream.loadStorePage answer = .ok (((m.eventsOf stream.runId).drop
        stream.lastSeenSequence).take sseReplayPageSize) ∨
      stream.loadStorePage answer = .error .store := by
  cases read with
  | failed error => exact Or.inr rfl
  | stored =>
    by_cases hid : stream.runId ∈ m.runs
    · refine Or.inl ?_
      have hload : m.loadEvents stream.runId stream.pageQuery = .ok
          (((m.eventsOf stream.runId).drop stream.lastSeenSequence).take sseReplayPageSize) := by
        unfold MemoryState.loadEvents
        rw [show validateLimit stream.pageQuery.limit 1 maxEventQueryLimit "event replay" = .ok ()
          from rfl]
        simp only [hid, ite_true]
        exact congrArg (fun events => Except.ok (List.take sseReplayPageSize events))
          (filter_sequence_eq_drop stream.lastSeenSequence _ 0 (hm.sequences stream.runId))
      rw [hload]
      generalize hpage : ((m.eventsOf stream.runId).drop stream.lastSeenSequence).take
        sseReplayPageSize = page
      have hmem : ∀ envelope ∈ page, envelope ∈ m.eventsOf stream.runId := by
        intro envelope h
        rw [← hpage] at h
        exact List.mem_of_mem_drop (List.mem_of_mem_take h)
      have hsequences : page.map (·.sequence) =
          List.range' (stream.lastSeenSequence + 1) page.length := by
        rw [← hpage, List.map_take, List.map_drop, hm.sequences, List.drop_range',
          List.length_take, List.length_drop, Nat.mul_one, Nat.add_comm 1]
        rcases Nat.le_total ((m.eventsOf stream.runId).length - stream.lastSeenSequence)
          sseReplayPageSize with hle | hle
        · rw [List.take_range'_of_length_le hle, Nat.min_eq_right hle]
        · rw [List.take_range'_of_length_ge hle, Nat.min_eq_left hle]
      have hlength : ¬ sseReplayPageSize < page.length := by
        rw [← hpage, List.length_take]
        omega
      unfold loadStorePage
      simp only
      rw [ite_cond_eq_false _ _ (eq_false hlength)]
      by_cases hempty : page = []
      · rw [ite_cond_eq_true _ _ (eq_true hempty), hempty]
      · rw [ite_cond_eq_false _ _ (eq_false hempty)]
        obtain ⟨first, rest, rfl⟩ := List.exists_cons_of_ne_nil hempty
        have hfirst : first.sequence = stream.lastSeenSequence + 1 := by
          rw [List.map_cons, List.length_cons, List.range'_succ, List.cons.injEq] at hsequences
          exact hsequences.1
        have hbound := bounded _ first (hmem first (List.mem_cons_self ..))
        rw [checkedAdd_eq_some.mpr ⟨by omega, rfl⟩]
        simp only
        rw [checkPage_eq_ok _ _ hsequences (fun e he => hm.owned _ e (hmem e he))
          fun e he => bounded _ e (hmem e he)]
    · refine Or.inr ?_
      have hload : m.loadEvents stream.runId stream.pageQuery =
          .error (.runNotFound stream.runId) := by
        unfold MemoryState.loadEvents
        rw [show validateLimit stream.pageQuery.limit 1 maxEventQueryLimit "event replay" = .ok ()
          from rfl]
        exact ite_cond_eq_false _ _ (eq_false hid)
      rw [hload]
      rfl

/-! ### The invariant of a stream -/

/-- The run has been registered in the hub: it is in the store, and the writer is not between the
two. -/
def RecorderState.Announced (r : RecorderState ε τ) (id : ExplainabilityRunId) : Prop :=
  id ∈ r.store.runs ∧ r.writer.stage ≠ .registering id

/-- A channel that was made for the run. -/
def ExplainabilityLiveHub.HasChannel (hub : ExplainabilityLiveHub ε) (id : ExplainabilityRunId)
    (index : ℕ) : Prop :=
  ∃ channel : LiveRunChannel ε, hub.channels[index]? = some channel ∧ channel.runId = id

theorem ExplainabilityLiveHub.Grows.hasChannel {hub hub' : ExplainabilityLiveHub ε}
    (h : hub.Grows hub') {index : ℕ} (hindex : hub.HasChannel id index) :
    hub'.HasChannel id index := by
  obtain ⟨channel, hchannel, hid⟩ := hindex
  obtain ⟨channel', hchannel', hid', -⟩ := h index channel hchannel
  exact ⟨channel', hchannel', hid'.trans hid⟩

/-- Where a stream stands, phase by phase.  Under `strict` a stream that gave up on live events is
one of a closed run. -/
def EnvelopeStreamState.Place (strict : Prop) (r : RecorderState ε τ)
    (hub : ExplainabilityLiveHub ε) (x : EnvelopeStreamState ε) : Prop :=
  match x.phase with
  | .subscribing first => x.pending = [] ∧ (first = false → ∃ index, hub.HasChannel x.runId index)
  | .subscribed index position =>
    x.pending = [] ∧ ∃ channel : LiveRunChannel ε, hub.channels[index]? = some channel ∧
      channel.runId = x.runId ∧ position ≤ channel.sent.length
  | .catchUp target subscription =>
    hub.HasChannel x.runId subscription.channel ∧ subscription.position ≤ target ∧
      target ≤ (r.store.eventsOf x.runId).length
  | .live subscription =>
    x.pending = [] ∧ hub.HasChannel x.runId subscription.channel ∧
      subscription.position ≤ x.lastSeenSequence
  | .finalCatchUp => strict → r.Closed hub x.runId
  | .doneAfterPending =>
    strict → r.Closed hub x.runId ∧
      x.yielded ++ x.pending = (r.store.eventsOf x.runId).drop x.start
  | .done => x.pending = []

/-- What holds of a stream at every moment. -/
structure StreamOk (strict : Prop) (r : RecorderState ε τ) (hub : ExplainabilityLiveHub ε)
    (x : EnvelopeStreamState ε) : Prop where
  inOrder : x.yielded ++ x.pending <+: (r.store.eventsOf x.runId).drop x.start
  lastSeen : x.lastSeenSequence = x.start + x.yielded.length
  sound : x.ended ≠ some (.error .sequenceInvariant)
  running : x.phase ≠ .done → x.ended = none
  place : x.Place strict r hub
  complete : strict → x.ended = some (.ok ()) →
    r.Closed hub x.runId ∧ x.yielded = (r.store.eventsOf x.runId).drop x.start

namespace StreamOk

variable {strict : Prop} {r r' : RecorderState ε τ} {hub hub' : ExplainabilityLiveHub ε}
  {x x' : EnvelopeStreamState ε}

/-- A new stream. -/
theorem new (id : ExplainabilityRunId) (lastSeenSequence : ℕ) :
    StreamOk strict r hub (.new id lastSeenSequence) where
  inOrder := List.nil_prefix
  lastSeen := rfl
  sound h := by cases h
  running _ := rfl
  place := ⟨rfl, fun h => by cases h⟩
  complete _ h := by cases h

section

variable (h : StreamOk strict r hub x)
include h

/-- Steps of the recorder leave a stream where it stands. -/
theorem frame (events : ∀ id, r.store.eventsOf id <+: r'.store.eventsOf id) (grows : hub.Grows hub')
    (closed : ∀ id, r.Closed hub id →
      r'.Closed hub' id ∧ r'.store.eventsOf id = r.store.eventsOf id) :
    StreamOk strict r' hub' x := by
  refine ⟨h.inOrder.trans ((events x.runId).drop _), h.lastSeen, h.sound, h.running, ?_, ?_⟩
  · have hplace := h.place
    unfold EnvelopeStreamState.Place at hplace ⊢
    split at hplace
    · exact ⟨hplace.1, fun hfirst => (hplace.2 hfirst).imp fun _ => grows.hasChannel⟩
    · obtain ⟨hpending, channel, hchannel, hid, hposition⟩ := hplace
      obtain ⟨channel', hchannel', hid', hsent⟩ := grows _ channel hchannel
      exact ⟨hpending, channel', hchannel', hid'.trans hid, hposition.trans hsent⟩
    · exact ⟨grows.hasChannel hplace.1, hplace.2.1, hplace.2.2.trans (events x.runId).length_le⟩
    · exact ⟨hplace.1, grows.hasChannel hplace.2.1, hplace.2.2⟩
    · exact fun hstrict => (closed _ (hplace hstrict)).1
    · intro hstrict
      obtain ⟨hclosed, hall⟩ := hplace hstrict
      obtain ⟨hclosed', hevents⟩ := closed _ hclosed
      exact ⟨hclosed', by rw [hevents, hall]⟩
    · exact hplace
  · intro hstrict hended
    obtain ⟨hclosed, hall⟩ := h.complete hstrict hended
    obtain ⟨hclosed', hevents⟩ := closed _ hclosed
    exact ⟨hclosed', by rw [hevents, hall]⟩

/-- What is left to yield are the stored events after the last seen one. -/
theorem drop_start : (r.store.eventsOf x.runId).drop x.start =
      x.yielded ++ (r.store.eventsOf x.runId).drop x.lastSeenSequence := by
  obtain ⟨rest, hrest⟩ := (List.prefix_append x.yielded x.pending).trans h.inOrder
  rw [h.lastSeen, ← List.drop_drop, ← hrest, List.drop_left]

/-- A step to a phase in which the stream still runs, with nothing yielded. -/
theorem moves (running : x.phase ≠ .done) (phase : StreamPhase)
    {pending : List (ExplainabilityEnvelope ε)}
    (inOrder : x.yielded ++ pending <+: (r.store.eventsOf x.runId).drop x.start)
    (place : ({ x with phase := phase, pending := pending } : EnvelopeStreamState ε).Place strict r
      hub) : StreamOk strict r hub { x with phase := phase, pending := pending } := by
  refine ⟨inOrder, h.lastSeen, h.sound, fun _ => h.running running, place, fun _ hended => ?_⟩
  rw [show x.ended = none from h.running running] at hended
  cases hended

/-- A step to another phase with nothing pending. -/
theorem turns (running : x.phase ≠ .done) {phase : StreamPhase}
    (place : ({ x with phase := phase } : EnvelopeStreamState ε).Place strict r hub) :
    StreamOk strict r hub { x with phase := phase } :=
  h.moves running phase h.inOrder place

/-- A failure of the store. -/
theorem fails : StreamOk strict r hub (x.fail .store) := by
  refine ⟨?_, h.lastSeen, fun hended => ?_, fun hphase => absurd rfl hphase, rfl,
    fun _ hended => ?_⟩
  · show x.yielded ++ [] <+: _
    rw [List.append_nil]
    exact (List.prefix_append _ _).trans h.inOrder
  · cases hended
  · cases hended

/-- An end without an error. -/
theorem finishes (empty : x.pending = []) (complete : strict → r.Closed hub x.runId ∧
      x.yielded = (r.store.eventsOf x.runId).drop x.start) :
    StreamOk strict r hub x.finish := by
  refine ⟨h.inOrder, h.lastSeen, fun hended => ?_, fun hphase => absurd rfl hphase, empty,
    fun hstrict _ => complete hstrict⟩
  cases hended

/-- A page queued for yielding continues what was yielded. -/
theorem page_inOrder :
    x.yielded ++ ((r.store.eventsOf x.runId).drop x.lastSeenSequence).take sseReplayPageSize <+:
      (r.store.eventsOf x.runId).drop x.start := by
  rw [h.drop_start, List.prefix_append_right_inj]
  exact List.take_prefix _ _

end

/-- The stored event at a position carries the next sequence and its run. -/
theorem event_at {m : MemoryState ε} (hm : m.Contract) {position : ℕ}
    {envelope : ExplainabilityEnvelope ε} (h : (m.eventsOf id)[position]? = some envelope) :
    envelope.sequence = position + 1 ∧ envelope.record.runId = id := by
  refine ⟨?_, hm.owned id envelope (List.mem_of_getElem? h)⟩
  have hposition := (List.getElem?_eq_some_iff.mp h).1
  have hsequences := congrArg (·[position]?) (hm.sequences id)
  simp only [List.getElem?_map, h, Option.map_some, List.getElem?_range' hposition,
    Option.some.injEq] at hsequences
  omega

variable (h : StreamOk strict r hub x) (hm : r.store.Contract)
include h hm

/-- A queued event is yielded. -/
theorem popFront {envelope : ExplainabilityEnvelope ε} {rest : List (ExplainabilityEnvelope ε)}
    (first : x.pending = envelope :: rest) :
    StreamOk strict r hub
      { x with
        pending := rest
        lastSeenSequence := envelope.sequence
        yielded := x.yielded ++ [envelope] } := by
  have happend : x.yielded ++ [envelope] ++ rest = x.yielded ++ x.pending := by
    rw [first, List.append_assoc, List.singleton_append]
  have hsequence : envelope.sequence = x.start + x.yielded.length + 1 := by
    have hget : ((r.store.eventsOf x.runId).drop x.start)[x.yielded.length]? = some envelope := by
      obtain ⟨tail, htail⟩ := h.inOrder
      rw [← htail, first, List.append_assoc, List.getElem?_append_right (le_refl _),
        Nat.sub_self]
      rfl
    rw [List.getElem?_drop] at hget
    exact (event_at hm hget).1
  have hrunning : x.phase ≠ .done := by
    intro hdone
    have hplace := h.place
    unfold EnvelopeStreamState.Place at hplace
    rw [hdone] at hplace
    rw [show x.pending = [] from hplace] at first
    cases first
  refine ⟨?_, ?_, h.sound, fun _ => h.running hrunning, ?_, fun _ hended => ?_⟩
  · show x.yielded ++ [envelope] ++ rest <+: _
    rw [happend]
    exact h.inOrder
  · show envelope.sequence = x.start + (x.yielded ++ [envelope]).length
    rw [hsequence, List.length_append, List.length_singleton]
    omega
  · have hplace := h.place
    unfold EnvelopeStreamState.Place at hplace ⊢
    cases hphase : x.phase with
    | subscribing | subscribed | live =>
      -- nothing is pending there
      simp only [hphase] at hplace
      rw [hplace.1] at first
      cases first
    | catchUp target subscription =>
      simp only [hphase] at hplace ⊢
      exact hplace
    | finalCatchUp =>
      simp only [hphase] at hplace ⊢
      exact hplace
    | doneAfterPending =>
      simp only [hphase] at hplace ⊢
      rw [happend]
      exact hplace
    | done => exact absurd hphase hrunning
  · rw [show x.ended = none from h.running hrunning] at hended
    cases hended

/-- A page loaded to catch up with the committed sequence. -/
theorem catchUp (hub_ : Published r hub)
    {target : ℕ} {subscription : ExplainabilityLiveSubscription}
    (at_ : x.phase = .catchUp target subscription) (behind : x.lastSeenSequence < target)
    (read : ReadAnswer (r.store.loadEvents x.runId x.pageQuery) answer) :
    StreamOk strict r hub (x.catchUpPage answer) := by
  have hplace := h.place
  unfold EnvelopeStreamState.Place at hplace
  simp only [at_] at hplace
  have hrunning : x.phase ≠ .done := by
    rw [at_]
    exact fun h => by cases h
  unfold catchUpPage
  rcases loadStorePage_of_read hm hub_.bounded x read with hpage | hfailed
  · rw [hpage]
    -- the committed events are stored, so the page is not empty
    obtain ⟨first, rest, hcons⟩ : ∃ first rest,
        ((r.store.eventsOf x.runId).drop x.lastSeenSequence).take sseReplayPageSize =
          first :: rest := by
      refine List.exists_cons_of_ne_nil fun hnil => ?_
      have hlength := congrArg List.length hnil
      rw [List.length_take, List.length_drop, List.length_nil, sseReplayPageSize] at hlength
      omega
    have hinOrder := h.page_inOrder
    rw [hcons] at hinOrder ⊢
    refine h.moves hrunning x.phase hinOrder ?_
    unfold EnvelopeStreamState.Place
    simp only [at_]
    exact hplace
  · rw [hfailed]
    exact h.fails

/-- A page loaded after the live events ended. -/
theorem finalCatchUp (hub_ : Published r hub)
    (at_ : x.phase = .finalCatchUp) (empty : x.pending = [])
    (read : ReadAnswer (r.store.loadEvents x.runId x.pageQuery) answer) :
    StreamOk strict r hub (x.finalPage answer) := by
  have hplace := h.place
  unfold EnvelopeStreamState.Place at hplace
  simp only [at_] at hplace
  have hrunning : x.phase ≠ .done := by
    rw [at_]
    decide
  unfold finalPage
  rcases loadStorePage_of_read hm hub_.bounded x read with hpage | hfailed
  · rw [hpage]
    have hinOrder := h.page_inOrder
    have hall := h.drop_start
    generalize hdrop : (r.store.eventsOf x.runId).drop x.lastSeenSequence = left at hinOrder hall ⊢
    cases left with
    | nil =>
      rw [List.take_nil]
      refine h.finishes empty fun hstrict => ⟨hplace hstrict, ?_⟩
      rw [hall, List.append_nil]
    | cons first rest =>
      rw [show (first :: rest).take sseReplayPageSize = first :: rest.take 63 from rfl]
        at hinOrder ⊢
      simp only
      by_cases hshort : (first :: rest.take 63).length < sseReplayPageSize
      · -- a short page is the last one
        rw [ite_cond_eq_true _ _ (eq_true hshort)]
        refine h.moves hrunning .doneAfterPending hinOrder fun hstrict => ⟨hplace hstrict, ?_⟩
        rw [List.length_cons, List.length_take, sseReplayPageSize] at hshort
        show x.yielded ++ (first :: rest.take 63) = _
        rw [List.take_of_length_le (by omega), hall]
      · rw [ite_cond_eq_false _ _ (eq_false hshort)]
        refine h.moves hrunning x.phase hinOrder ?_
        unfold EnvelopeStreamState.Place
        simp only [at_]
        exact hplace
  · rw [hfailed]
    exact h.fails

/-- A result of the receiver. -/
theorem receive (hub_ : Published r hub) {ring : ℕ} {subscription : ExplainabilityLiveSubscription}
    {result : Except ExplainabilityLiveRecvError (ExplainabilityEnvelope ε) ×
      ExplainabilityLiveSubscription}
    (at_ : x.phase = .live subscription) (ready : hub.recv ring subscription = some result) :
    StreamOk strict r hub (x.received result) := by
  have hplace := h.place
  unfold EnvelopeStreamState.Place at hplace
  simp only [at_] at hplace
  obtain ⟨hpending, ⟨channel, hchannel, hid⟩, hposition⟩ := hplace
  have hrunning : x.phase ≠ .done := by
    rw [at_]
    exact fun h => by cases h
  have hhas : hub.HasChannel x.runId subscription.channel := ⟨channel, hchannel, hid⟩
  unfold ExplainabilityLiveHub.recv at ready
  rw [hchannel] at ready
  simp only at ready
  split at ready
  · -- the receiver fell behind the ring: the stream subscribes again
    obtain rfl := Option.some.inj ready
    exact h.turns hrunning ⟨hpending, fun _ => ⟨_, hhas⟩⟩
  · split at ready
    · next envelope hsent =>
      obtain rfl := Option.some.inj ready
      obtain ⟨hevents, -, -⟩ := hub_.channel _ channel hchannel
      rw [hid] at hevents
      have hget : (r.store.eventsOf x.runId)[subscription.position]? = some envelope := by
        obtain ⟨tail, htail⟩ := hevents
        rw [← htail, List.getElem?_append_left (List.getElem?_eq_some_iff.mp hsent).1, hsent]
      obtain ⟨hsequence, hrunId⟩ := event_at hm hget
      have hbound := hub_.bounded _ envelope (List.mem_of_getElem? hget)
      simp only [received]
      rw [ite_cond_eq_false _ _ (eq_false (not_not.mpr hrunId))]
      by_cases hseen : envelope.sequence ≤ x.lastSeenSequence
      · rw [ite_cond_eq_true _ _ (eq_true hseen)]
        refine h.turns hrunning ⟨hpending, hhas, ?_⟩
        show subscription.position + 1 ≤ x.lastSeenSequence
        omega
      · -- the receiver is not past the last seen event, so this is the next one
        have hnext : subscription.position = x.lastSeenSequence := by omega
        rw [ite_cond_eq_false _ _ (eq_false hseen),
          show checkedAdd x.lastSeenSequence 1 = some (x.lastSeenSequence + 1) from
            checkedAdd_eq_some.mpr ⟨by omega, rfl⟩]
        simp only
        rw [ite_cond_eq_true _ _ (eq_true (by omega))]
        refine ⟨?_, ?_, h.sound, fun _ => h.running hrunning, ⟨hpending, hhas, ?_⟩,
          fun _ hended => ?_⟩
        · show x.yielded ++ [envelope] ++ x.pending <+: _
          obtain ⟨hlt, hgetElem⟩ := List.getElem?_eq_some_iff.mp hget
          have hlt' : x.lastSeenSequence < (r.store.eventsOf x.runId).length := by omega
          rw [hpending, List.append_nil, h.drop_start, List.prefix_append_right_inj,
            List.drop_eq_getElem_cons hlt']
          simp only [← hnext, hgetElem]
          exact List.prefix_append [envelope] _
        · show envelope.sequence = x.start + (x.yielded ++ [envelope]).length
          rw [List.length_append, List.length_singleton, hsequence, hnext, h.lastSeen]
          omega
        · show subscription.position + 1 ≤ envelope.sequence
          omega
        · rw [show x.ended = none from h.running hrunning] at hended
          cases hended
    · split at ready
      · cases ready
      · next hgone =>
        obtain rfl := Option.some.inj ready
        exact h.turns hrunning fun _ =>
          hid ▸ (hub_.closed _ channel hchannel).resolve_left hgone

/-- Every step of a stream. -/
theorem step (hub_ : Published r hub) {ring : ℕ} (hstep : StreamStep ring r.store hub x x')
    (attached : strict → x.phase = .subscribing true → r.Announced x.runId) :
    StreamOk strict r hub x' := by
  have hplace := h.place
  unfold EnvelopeStreamState.Place at hplace
  cases hstep with
  | subscribe first index channel at_ found here =>
    simp only [at_] at hplace
    refine h.turns (by rw [at_]; exact fun h => by cases h) ⟨hplace.1, channel, here, ?_, le_refl _⟩
    obtain ⟨channel', hchannel', hid⟩ := hub_.entry _ index found
    rw [here] at hchannel'
    rw [Option.some.inj hchannel', hid]
  | missing first at_ absent =>
    simp only [at_] at hplace
    refine h.turns (by rw [at_]; exact fun h => by cases h) fun hstrict => ?_
    -- a channel was made for the run and is no longer in the map
    obtain ⟨index, channel, hchannel, hid⟩ : ∃ index, hub.HasChannel x.runId index := by
      cases first with
      | true =>
        obtain ⟨hstored, hstage⟩ := attached hstrict at_
        exact (hub_.known _ hstored).resolve_right hstage
      | false => exact hplace.2 rfl
    have hclosed := hub_.closed index channel hchannel
    rw [hid, absent] at hclosed
    exact hclosed.resolve_left fun h => by cases h
  | snapshot index position channel at_ here =>
    simp only [at_] at hplace
    obtain ⟨-, channel', hchannel', hid, hposition⟩ := hplace
    rw [here] at hchannel'
    obtain rfl := Option.some.inj hchannel'
    obtain ⟨-, hcommitted, hstored⟩ := hub_.channel index channel here
    rw [hid] at hstored
    exact h.turns (by rw [at_]; exact fun h => by cases h)
      ⟨⟨channel, here, hid⟩, hposition.trans hcommitted, hstored⟩
  | popFront envelope rest first => exact h.popFront hm first
  | caughtUp target subscription at_ empty reached =>
    simp only [at_] at hplace
    exact h.turns (by rw [at_]; exact fun h => by cases h)
      ⟨empty, hplace.1, hplace.2.1.trans reached⟩
  | catchUp target subscription answer at_ empty behind read =>
    exact h.catchUp hm hub_ at_ behind read
  | receive subscription result at_ empty ready => exact h.receive hm hub_ at_ ready
  | finalCatchUp answer at_ empty read => exact h.finalCatchUp hm hub_ at_ empty read
  | finish at_ empty =>
    simp only [at_] at hplace
    refine h.finishes empty fun hstrict => ?_
    obtain ⟨hclosed, hall⟩ := hplace hstrict
    rw [empty, List.append_nil] at hall
    exact ⟨hclosed, hall⟩

end StreamOk

/-! ### Runs -/

section Runs

variable [DecidableEq τ] [DecidableEq κ] {capacity ring : ℕ} {s s' : SseState ε τ κ}
  {action : SseAction ε κ}

/-- Whether a step is the first look of client `k`'s stream at the hub, made before the run was
registered there. -/
def SseAction.isEarly (k : κ) (s : SseState ε τ κ) : SseAction ε κ → Prop
  | .subscribe k' id => k' = k ∧ ¬ s.recorder.Announced id
  | .recorder _ | .client _ => False

omit [DecidableEq τ] in
/-- The stored events of a run only grow. -/
theorem Publication.eventsOf {r r' : RecorderState ε τ} {action : RecorderAction ε}
    (h : Publication r r' action) (id : ExplainabilityRunId) :
    r.store.eventsOf id <+: r'.store.eventsOf id := by
  cases h with
  | works _ _ _ events | created _ _ _ events => rw [events]
  | registered _ _ _ store | committed _ _ _ store | sent _ _ _ store | closed _ _ _ store =>
    rw [store]
  | appended envelope before after events =>
    rw [events]
    by_cases hid : id = envelope.record.runId
    · rw [hid, Function.update_self]
      exact List.prefix_append _ _
    · rw [Function.update_of_ne hid]

/-- What holds of the whole system at every moment; the streams of the clients in `strict` did not
look at the hub early. -/
structure SseState.Valid (capacity : ℕ) (strict : κ → Prop) (s : SseState ε τ κ) : Prop where
  recorder : (storeExplainabilityRecorder ε τ capacity).Reachable s.recorder
  hub : Published s.recorder s.hub
  streams : ∀ k stream, s.clients k = .streaming stream →
    StreamOk (strict k) s.recorder s.hub stream

namespace SseState.Valid

variable {strict : κ → Prop}

/-- A step of one client. -/
theorem client (h : s.Valid capacity strict) (k : κ) (client : SseClient ε)
    (ok : ∀ stream, client = .streaming stream → StreamOk (strict k) s.recorder s.hub stream) :
    SseState.Valid capacity strict { s with clients := update s.clients k client } := by
  refine ⟨h.recorder, h.hub, fun k' stream hk => ?_⟩
  by_cases hkk : k' = k
  · rw [hkk] at hk ⊢
    exact ok stream (by rw [← hk]; exact (Function.update_self k client s.clients).symm)
  · refine h.streams k' stream ?_
    rw [← hk]
    exact (Function.update_of_ne hkk client s.clients).symm

/-- Every step preserves the invariant. -/
theorem step (h : s.Valid capacity strict)
    (hstep : (explainabilitySseService ε τ κ capacity ring).step s action s')
    (onTime : ∀ k, strict k → ¬ action.isEarly k s) : s'.Valid capacity strict := by
  have hvalid := storeExplainabilityRecorder_valid h.recorder
  cases hstep with
  | recorder action recorder step unlocked =>
    refine ⟨.step h.recorder step, h.hub.step h.recorder step, fun k stream hk => ?_⟩
    exact (h.streams k stream hk).frame (step.publication hvalid).eventsOf
      (s.hub.perform_grows action) fun id hclosed => hclosed.step h.recorder step
  | request k id lastSeenSequence at_ => exact h.client k _ fun _ heq => by cases heq
  | handle k id lastSeenSequence answer at_ read =>
    refine h.client k _ fun stream heq => ?_
    unfold eventsHandler at heq
    split at heq
    · split at heq
      · cases heq
      · rw [← SseClient.streaming.inj heq]
        exact .new id lastSeenSequence
    · cases heq
    · cases heq
  | «open» k id lastSeenSequence at_ =>
    refine h.client k _ fun stream heq => ?_
    rw [← SseClient.streaming.inj heq]
    exact .new id lastSeenSequence
  | stream k stream stream' at_ step =>
    refine h.client k _ fun x heq => ?_
    rw [← SseClient.streaming.inj heq]
    refine (h.streams k stream at_).step hvalid.store h.hub step fun hstrict hfirst => ?_
    have hearly := onTime k hstrict
    rw [action, ite_cond_eq_true _ _ (eq_true hfirst)] at hearly
    exact not_not.mp fun h => hearly ⟨rfl, h⟩

end SseState.Valid

omit [DecidableEq κ] in
theorem SseState.valid_new (strict : κ → Prop) :
    (SseState.new : SseState ε τ κ).Valid capacity strict :=
  ⟨.init rfl, published_new, fun _ _ h => by cases h⟩

/-- The invariant in every run. -/
theorem explainabilitySseService_valid
    (hs : (explainabilitySseService ε τ κ capacity ring).Reachable s) :
    s.Valid capacity fun _ => False :=
  hs.invariant (fun _ h => h ▸ SseState.valid_new _) fun _ _ _ _ h hstep =>
    h.step hstep fun _ h => h.elim

/-- The invariant in every run in which the stream of `k` does not look at the hub early. -/
theorem explainabilitySseService_valid_of_onTime {k : κ}
    (hs : ((explainabilitySseService ε τ κ capacity ring).restrict
      fun s action => ¬ action.isEarly k s).Reachable s) :
    s.Valid capacity fun k' => k' = k :=
  hs.invariant (fun _ h => h ▸ SseState.valid_new _) fun _ _ _ _ h hstep =>
    h.step hstep.1 fun _ hk => hk ▸ hstep.2

omit [DecidableEq τ] in
/-- The numbers of what a stream yielded. -/
theorem StreamOk.sequences {strict : Prop} {r : RecorderState ε τ} {hub : ExplainabilityLiveHub ε}
    {x : EnvelopeStreamState ε} (h : StreamOk strict r hub x) (hm : r.store.Contract) :
    x.yielded.map (·.sequence) = List.range' (x.start + 1) x.yielded.length := by
  obtain ⟨rest, hrest⟩ := (List.prefix_append x.yielded x.pending).trans h.inOrder
  have hlength := congrArg List.length hrest
  rw [List.length_append, List.length_drop] at hlength
  have hyielded : x.yielded =
      ((r.store.eventsOf x.runId).drop x.start).take x.yielded.length := by
    rw [← hrest, List.take_left]
  rw [hyielded, List.map_take, List.map_drop, hm.sequences, List.drop_range', Nat.mul_one,
    List.take_range'_of_length_ge (by omega), List.length_take, List.length_drop,
    Nat.min_eq_left (by omega), Nat.add_comm 1]

end Runs

/-! ### Sample runs -/

section Samples

variable {C : SseState String Unit Unit → SseAction String Unit → Prop}
  {s : SseState String Unit Unit}

def RecorderAction.isClose : RecorderAction String → Bool
  | .hubClose _ => true
  | _ => false

/-- The reachable states of a recorder with a queue of one slot, one task, one client and a ring of
16 slots, when every step meets a condition. -/
abbrev SampleReachable (C : SseState String Unit Unit → SseAction String Unit → Prop)
    (s : SseState String Unit Unit) : Prop :=
  ((explainabilitySseService String Unit Unit 1 16).restrict C).Reachable s

namespace SampleReachable

theorem next (hs : SampleReachable C s) {action : SseAction String Unit}
    {s' : SseState String Unit Unit} (h : SseStep 1 16 s action s') (hC : C s action) :
    SampleReachable C s' :=
  .step hs ⟨h, hC⟩

variable {r : RecorderState String Unit} (hs : SampleReachable C s)
include hs

section

variable (hC : ∀ s action, C s (.recorder action))
include hC

theorem recorder {action : RecorderAction String}
    (h : RecorderStep 1 s.recorder action r) (notClose : ∀ id, action ≠ .hubClose id) :
    SampleReachable C { s with recorder := r, hub := s.hub.perform action } :=
  hs.next (.recorder action r h fun id hid => absurd hid (notClose id)) (hC _ _)

theorem internal (h : RecorderStep 1 s.recorder .internal r) :
    SampleReachable C { s with recorder := r } :=
  hs.recorder hC h fun _ h => by cases h

/-- A run of the recorder that closes nothing in the hub. -/
theorem run {labels : List (RecorderAction String)}
    (h : (storeExplainabilityRecorder String Unit 1).Run s.recorder labels r)
    (hopen : labels.any (·.isClose) = false) :
    SampleReachable C { s with recorder := r, hub := labels.foldl (·.perform) s.hub } := by
  induction h with
  | nil => exact hs
  | snoc hrun hstep ih =>
    rw [List.any_append, Bool.or_eq_false_iff] at hopen
    rw [List.foldl_append]
    refine (ih hopen.1).recorder hC hstep ?_
    rintro id rfl
    exact Bool.noConfusion hopen.2

theorem close (h : RecorderStep 1 s.recorder (.hubClose id) r)
    (unlocked : ∀ stream index position, s.clients () = .streaming stream →
      stream.phase = .subscribed index position → False) :
    SampleReachable C { s with recorder := r, hub := s.hub.closeRun id } :=
  hs.next (.recorder _ r h fun _ _ _ stream index position hk hphase =>
    (unlocked stream index position hk hphase).elim) (hC _ _)

end

/-- The client asks for every event of a run that is in the store. -/
theorem request (hC : ∀ s, C s (.client ())) (id : ExplainabilityRunId)
    {run : ExplainabilityRun} (idle : s.clients () = .idle)
    (stored : s.recorder.store.getRun id = .ok (some run)) :
    SampleReachable C { s with clients := fun _ => .streaming (.new id 0) } := by
  have hrequested := hs.next (.request () id 0 idle) (hC _)
  have hhandled := hrequested.next (.handle () id 0 _ rfl .stored) (hC _)
  have hupdate : ∀ client client' : SseClient String,
      update (update s.clients () client) () client' = fun _ => client' := by
    intro client client'
    funext k
    exact Function.update_self ..
  rw [show ({ s with clients := update s.clients () (.requested id 0) } :
    SseState String Unit Unit).recorder.store.getRun id = .ok (some run) from stored] at hhandled
  simp only [hupdate] at hhandled
  exact hhandled

theorem stream {x x' : EnvelopeStreamState String} (at_ : s.clients () = .streaming x)
    (step : StreamStep 16 s.recorder.store s.hub x x') (hC : C s (x.action ())) :
    SampleReachable C { s with clients := fun _ => .streaming x' } :=
  hs.next (.stream () x x' at_ step) hC

end SampleReachable

end Samples

/-- The writer persists and publishes the record. -/
def samplePublished : SampleRun sampleSent.state := by
  have h : (storeExplainabilityRecorder String Unit 1).Run sampleSent.state [] _ := .nil
  replace h := h.snoc (.writer (.receive _ _ rfl rfl))
  replace h := h.snoc (.writer (.persist _ _ _ rfl rfl .performed))
  replace h := h.snoc (.writer (.publish _ rfl))
  replace h := h.snoc (.writer (.send _ rfl))
  exact ⟨_, _, h⟩

/-- The record is emitted and published once more. -/
def samplePublishedAgain : SampleRun samplePublished.state := by
  have h : (storeExplainabilityRecorder String Unit 1).Run samplePublished.state [] _ := .nil
  replace h := h.snoc (.emit () (.start sampleRecord _ rfl rfl))
  replace h := h.snoc (.emit () (.acquireRun _ _ rfl rfl rfl))
  replace h := h.snoc (.emit () (.acquire _ rfl rfl))
  replace h := h.snoc (.emit () (.writerUp _ rfl rfl))
  replace h := h.snoc (.emit () (.gateOpen _ _ rfl rfl rfl))
  replace h := h.snoc (.emit () (.reserve _ rfl rfl (by decide)))
  replace h := h.snoc (.emit () (.send _ rfl))
  replace h := h.snoc (.writer (.receive _ _ rfl rfl))
  replace h := h.snoc (.writer (.persist _ _ _ rfl rfl .performed))
  replace h := h.snoc (.writer (.publish _ rfl))
  replace h := h.snoc (.writer (.send _ rfl))
  exact ⟨_, _, h⟩

/-- The task finishes the run, up to where the writer closes it in the hub. -/
def sampleFinished : SampleRun samplePublishedAgain.state := by
  have h : (storeExplainabilityRecorder String Unit 1).Run samplePublishedAgain.state [] _ := .nil
  replace h := h.snoc (.finishRun () (.start sampleRecord.runId _ rfl rfl))
  replace h := h.snoc (.finishRun () (.acquireRun _ _ rfl rfl rfl))
  replace h := h.snoc (.finishRun () (.matchActive _ _ rfl rfl rfl))
  replace h := h.snoc (.finishRun () (.acquire _ rfl rfl))
  replace h := h.snoc (.finishRun () (.writerUp _ rfl rfl))
  replace h := h.snoc (.finishRun () (.reserve _ rfl rfl (by decide)))
  replace h := h.snoc (.finishRun () (.mark _ rfl))
  replace h := h.snoc (.finishRun () (.send _ rfl))
  replace h := h.snoc (.writer (.receive _ _ rfl rfl))
  replace h := h.snoc (.writer (.finish _ _ _ rfl rfl rfl))
  exact ⟨_, _, h⟩

/-- The client attaches while the run is live, gets its events, and the run is finished. -/
theorem sampleStream_complete : ∃ s : SseState String Unit Unit,
    SampleReachable (fun s action => ¬ action.isEarly () s) s ∧
    ∃ stream, s.clients () = .streaming stream ∧ stream.start = 0 ∧
      stream.ended = some (.ok ()) ∧
      stream.yielded.map (·.record) = [sampleRecord, sampleRecord] := by
  have hC : ∀ (s : SseState String Unit Unit) (action : RecorderAction String),
      ¬ SseAction.isEarly () s (.recorder action) := fun _ _ h => h
  have hK : ∀ s : SseState String Unit Unit, ¬ SseAction.isEarly () s (.client ()) := fun _ h => h
  have h : SampleReachable (fun s action => ¬ action.isEarly () s) .new := .init rfl
  replace h := (h.run hC sampleStored.run rfl).run hC sampleCreated.run rfl
  replace h := h.request hK sampleRecord.runId rfl rfl
  replace h := h.stream rfl (.subscribe true _ _ rfl rfl rfl) fun h =>
    h.2 ⟨by decide, fun h => by cases h⟩
  replace h := h.stream rfl (.snapshot _ _ _ rfl rfl) (hK _)
  replace h := h.stream rfl (.caughtUp _ _ rfl rfl (Nat.le_refl 0)) (hK _)
  replace h := (h.run hC sampleSent.run rfl).run hC samplePublished.run rfl
  replace h := h.stream rfl (.receive _ _ rfl rfl rfl) (hK _)
  replace h := h.run hC samplePublishedAgain.run rfl
  replace h := h.stream rfl (.receive _ _ rfl rfl rfl) (hK _)
  replace h := h.run hC sampleFinished.run rfl
  replace h := h.close hC (.writer (.close _ _ rfl)) fun stream index position hk hphase => by
    obtain rfl := SseClient.streaming.inj hk
    cases hphase
  replace h := h.internal hC (.writer (.answer _ _ rfl))
  replace h := h.internal hC (.finishRun () (.answered _ _ rfl rfl))
  replace h := h.stream rfl (.receive _ _ rfl rfl rfl) (hK _)
  replace h := h.stream rfl (.finalCatchUp _ rfl rfl .stored) (hK _)
  exact ⟨_, h, _, rfl, rfl, rfl, rfl⟩

/-- The client attaches between the creation of the run in the store and its registration in the
hub, where its stream finds no channel. -/
def sampleEarly : { s : SseState String Unit Unit // SampleReachable (fun _ _ => True) s } := by
  have h : SampleReachable (fun _ _ => True) .new := .init rfl
  replace h := h.run (fun _ _ => trivial) sampleStored.run rfl
  replace h := h.request (fun _ => trivial) sampleRecord.runId rfl rfl
  exact ⟨_, h.stream rfl (.missing true rfl rfl) trivial⟩

/-- The stream ends before the run has begun. -/
theorem sampleStream_ended : ∃ s : SseState String Unit Unit,
    SampleReachable (fun _ _ => True) s ∧
    s.recorder.runs.lookup sampleRecord.runId = some .new ∧ sampleRecord.runId ∈ s.hub.runs ∧
    ∃ stream, s.clients () = .streaming stream ∧ stream.runId = sampleRecord.runId ∧
      stream.ended = some (.ok ()) := by
  have h := sampleEarly.2
  replace h := h.stream rfl (.finalCatchUp _ rfl rfl .stored) trivial
  replace h := h.run (fun _ _ => trivial) sampleCreated.run rfl
  exact ⟨_, h, rfl, by decide, _, rfl, rfl, rfl⟩

/-- The stream replays the first event after it is stored and takes it for the last one.  The second
event is stored and the run is finished before the stream ends. -/
theorem sampleStream_incomplete : ∃ s : SseState String Unit Unit,
    SampleReachable (fun _ _ => True) s ∧
    s.recorder.tasks () = .returnedSink (.finishRun sampleRecord.runId) (.ok ()) ∧
    (s.recorder.store.eventsOf sampleRecord.runId).map (·.sequence) = [1, 2] ∧
    ∃ stream, s.clients () = .streaming stream ∧ stream.runId = sampleRecord.runId ∧
      stream.start = 0 ∧ stream.ended = some (.ok ()) ∧ stream.yielded.map (·.sequence) = [1] := by
  have hC : ∀ (s : SseState String Unit Unit) (action : RecorderAction String), True :=
    fun _ _ => trivial
  have h := sampleEarly.2
  replace h := (h.run hC sampleCreated.run rfl).run hC sampleSent.run rfl
  replace h := h.run hC samplePublished.run rfl
  replace h := h.stream rfl (.finalCatchUp _ rfl rfl .stored) trivial
  replace h := (h.run hC samplePublishedAgain.run rfl).run hC sampleFinished.run rfl
  replace h := h.close hC (.writer (.close _ _ rfl)) fun stream index position hk hphase => by
    obtain rfl := SseClient.streaming.inj hk
    cases hphase
  replace h := h.internal hC (.writer (.answer _ _ rfl))
  replace h := h.internal hC (.finishRun () (.answered _ _ rfl rfl))
  replace h := h.stream rfl (.popFront _ _ rfl) trivial
  replace h := h.stream rfl (.finish rfl rfl) trivial
  exact ⟨_, h, rfl, rfl, _, rfl, rfl, rfl, rfl, rfl⟩

/-! ### What clients get -/

section Clients

variable [DecidableEq τ] [DecidableEq κ]

/-- **A stream yields every event once and in order.**  In every run a stream yields consecutive
events from the one after its start and never meets a sequence error.  In every run in which it does
not look at the hub before its run is registered there, a stream that ends without an error has
yielded every stored event after its start. -/
theorem explainabilitySseService_delivers (capacity ring : ℕ) :
    (∀ s : SseState ε τ κ, (explainabilitySseService ε τ κ capacity ring).Reachable s →
      ∀ k stream, s.clients k = .streaming stream →
        stream.yielded.map (·.sequence) =
          List.range' (stream.start + 1) stream.yielded.length ∧
        stream.yielded <+: (s.recorder.store.eventsOf stream.runId).drop stream.start ∧
        stream.ended ≠ some (.error .sequenceInvariant)) ∧
    ∀ (k : κ) (s : SseState ε τ κ), ((explainabilitySseService ε τ κ capacity ring).restrict
        fun s action => ¬ action.isEarly k s).Reachable s →
      ∀ stream, s.clients k = .streaming stream → stream.ended = some (.ok ()) →
        stream.yielded = (s.recorder.store.eventsOf stream.runId).filter
          fun envelope => stream.start < envelope.sequence := by
  refine ⟨fun s hs k stream hk => ?_, fun k s hs stream hk hended => ?_⟩
  · have hvalid := explainabilitySseService_valid hs
    have hstream := hvalid.streams k stream hk
    exact ⟨hstream.sequences (storeExplainabilityRecorder_valid hvalid.recorder).store,
      (List.prefix_append _ _).trans hstream.inOrder, hstream.sound⟩
  · have hvalid := explainabilitySseService_valid_of_onTime hs
    have hcontract := (storeExplainabilityRecorder_valid hvalid.recorder).store
    rw [filter_sequence_eq_drop stream.start _ 0 (hcontract.sequences stream.runId)]
    exact ((hvalid.streams k stream hk).complete rfl hended).2

theorem explainabilitySseService_delivers_sample : ∃ s : SseState String Unit Unit,
    ∃ stream, s.clients () = .streaming stream ∧ stream.yielded.map (·.sequence) = [1, 2] ∧
      stream.yielded = (s.recorder.store.eventsOf stream.runId).filter
        fun envelope => stream.start < envelope.sequence := by
  obtain ⟨s, hs, stream, hk, hstart, hended, hyielded⟩ := sampleStream_complete
  refine ⟨s, stream, hk, ?_, (explainabilitySseService_delivers 1 16).2 () s hs stream hk hended⟩
  rw [((explainabilitySseService_delivers 1 16).1 s hs.of_restrict () stream hk).1, hstart,
    show stream.yielded.length = 2 by simpa using congrArg List.length hyielded]
  rfl

/-- A stream that looks at the hub early can miss events of a run that is finished when it ends. -/
theorem explainabilitySseService_incomplete :
    ¬ ∀ s : SseState String Unit Unit,
      (explainabilitySseService String Unit Unit 1 16).Reachable s →
      ∀ k stream t, s.clients k = .streaming stream →
        s.recorder.tasks t = .returnedSink (.finishRun stream.runId) (.ok ()) →
        stream.ended = some (.ok ()) →
        stream.yielded = (s.recorder.store.eventsOf stream.runId).filter
          fun envelope => stream.start < envelope.sequence := by
  intro hclaim
  obtain ⟨s, hs, hfinished, hevents, stream, hk, hid, hstart, hended, hyielded⟩ :=
    sampleStream_incomplete
  rw [← hid] at hfinished hevents
  have hall := hclaim s hs.of_restrict () stream () hk hfinished hended
  have hlength := congrArg (fun events => (events.map (·.sequence)).length) hall
  have hcontract := (storeExplainabilityRecorder_valid
    (explainabilitySseService_valid hs.of_restrict).recorder).store
  simp only [hyielded] at hlength
  rw [hstart, filter_sequence_eq_drop 0 _ 0 (hcontract.sequences stream.runId), Nat.sub_zero,
    List.drop_zero, hevents] at hlength
  cases hlength

/-- **A stream does not end early.**  In every run in which it does not look at the hub before its
run is registered there, a stream that ends without an error is one of a run that the recorder has
closed. -/
theorem explainabilitySseService_ends_after_close (capacity ring : ℕ) (k : κ) (s : SseState ε τ κ)
    (hs : ((explainabilitySseService ε τ κ capacity ring).restrict
      fun s action => ¬ action.isEarly k s).Reachable s)
    (stream : EnvelopeStreamState ε) (hk : s.clients k = .streaming stream)
    (hended : stream.ended = some (.ok ())) : s.recorder.Closed s.hub stream.runId :=
  (((explainabilitySseService_valid_of_onTime hs).streams k stream hk).complete rfl hended).1

theorem explainabilitySseService_ends_after_close_sample : ∃ s : SseState String Unit Unit,
    ∃ stream, s.clients () = .streaming stream ∧ stream.ended = some (.ok ()) ∧
      s.recorder.Closed s.hub stream.runId := by
  obtain ⟨s, hs, stream, hk, -, hended, -⟩ := sampleStream_complete
  exact ⟨s, stream, hk, hended,
    explainabilitySseService_ends_after_close 1 16 () s hs stream hk hended⟩

/-- A stream that looks at the hub early can end before its run has taken an event. -/
theorem explainabilitySseService_ends_early :
    ¬ ∀ s : SseState String Unit Unit,
      (explainabilitySseService String Unit Unit 1 16).Reachable s →
      ∀ k stream, s.clients k = .streaming stream → stream.ended = some (.ok ()) →
        s.recorder.Closed s.hub stream.runId := by
  intro hclaim
  obtain ⟨s, hs, -, hlive, stream, hk, hid, hended⟩ := sampleStream_ended
  have hclosed := hclaim s hs.of_restrict () stream hk hended
  rw [hid] at hclosed
  exact hclosed.1 hlive

end Clients

end GraphLoom.Explainability
