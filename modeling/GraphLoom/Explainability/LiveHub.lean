import GraphLoom.Explainability.StoreRecorder

/-!
# The live hub

`ExplainabilityLiveHub` keeps one broadcast channel for every run that is live.  The map holds the
channel's only sender, so a channel is closed when its run leaves the map; its receivers stay.

A channel is named by its place in the list of all channels that were ever made.  A message sent
while nobody listens takes no slot of the ring in the source and takes one here; a receiver starts
behind it either way, so no receiver can tell.
-/

namespace GraphLoom.Explainability

variable {ε : Type}

/-- The channel of a run, with the messages sent through it. -/
structure LiveRunChannel (ε : Type) where
  runId : ExplainabilityRunId
  sent : List (ExplainabilityEnvelope ε)
  lastSequence : ℕ

/-- The hub: the channels of the live runs, and all channels. -/
structure ExplainabilityLiveHub (ε : Type) where
  runs : AList (fun _ : ExplainabilityRunId => ℕ)
  channels : List (LiveRunChannel ε)

/-- A receiver of one channel: the number of messages it is past, and the sequence that was
committed when it was made. -/
structure ExplainabilityLiveSubscription where
  channel : ℕ
  snapshotSequence : ℕ
  position : ℕ
deriving DecidableEq

/-- Why nothing was received. -/
inductive ExplainabilityLiveRecvError where
  | lagged (skipped : ℕ)
  | closed
deriving DecidableEq

namespace ExplainabilityLiveHub

/-- An empty hub. -/
def new : ExplainabilityLiveHub ε := ⟨∅, []⟩

/-- `register_run`. -/
def registerRun (hub : ExplainabilityLiveHub ε) (id : ExplainabilityRunId) :
    ExplainabilityLiveHub ε :=
  if id ∈ hub.runs then hub
  else
    { runs := hub.runs.insert id hub.channels.length
      channels := hub.channels ++ [⟨id, [], 0⟩] }

/-- Change the channel of a live run. -/
def modify (hub : ExplainabilityLiveHub ε) (id : ExplainabilityRunId)
    (f : LiveRunChannel ε → LiveRunChannel ε) : ExplainabilityLiveHub ε :=
  match hub.runs.lookup id with
  | none => hub
  | some channel => { hub with channels := hub.channels.modify channel f }

/-- `publish`, first half: the sequence is committed. -/
def publishSequence (hub : ExplainabilityLiveHub ε) (envelope : ExplainabilityEnvelope ε) :
    ExplainabilityLiveHub ε :=
  hub.modify envelope.record.runId fun channel =>
    { channel with lastSequence := envelope.sequence }

/-- `publish`, second half: the envelope is sent. -/
def publishSend (hub : ExplainabilityLiveHub ε) (envelope : ExplainabilityEnvelope ε) :
    ExplainabilityLiveHub ε :=
  hub.modify envelope.record.runId fun channel =>
    { channel with sent := channel.sent ++ [envelope] }

/-- `close_run`. -/
def closeRun (hub : ExplainabilityLiveHub ε) (id : ExplainabilityRunId) :
    ExplainabilityLiveHub ε :=
  { hub with runs := hub.runs.erase id }

/-- What the recorder does to the hub. -/
def perform (hub : ExplainabilityLiveHub ε) : RecorderAction ε → ExplainabilityLiveHub ε
  | .hubRegister id => hub.registerRun id
  | .hubSequence envelope => hub.publishSequence envelope
  | .hubSend envelope => hub.publishSend envelope
  | .hubClose id => hub.closeRun id
  | .internal | .storeCreate _ | .storeAppend _ | .storeComplete _ => hub

/-- `recv` on a ring of `ring` slots: the next message, or why there is none; `none` while the
receiver waits.  A receiver that fell behind the ring goes on with the oldest message in it. -/
def recv (hub : ExplainabilityLiveHub ε) (ring : ℕ)
    (subscription : ExplainabilityLiveSubscription) :
    Option (Except ExplainabilityLiveRecvError (ExplainabilityEnvelope ε) ×
      ExplainabilityLiveSubscription) :=
  match hub.channels[subscription.channel]? with
  | none => none
  | some channel =>
    let oldest := channel.sent.length - ring
    if subscription.position < oldest then
      some (.error (.lagged (oldest - subscription.position)),
        { subscription with position := oldest })
    else
      match channel.sent[subscription.position]? with
      | some envelope =>
        some (.ok envelope, { subscription with position := subscription.position + 1 })
      | none =>
        if hub.runs.lookup channel.runId = some subscription.channel then none
        else some (.error .closed, subscription)

end ExplainabilityLiveHub

end GraphLoom.Explainability
