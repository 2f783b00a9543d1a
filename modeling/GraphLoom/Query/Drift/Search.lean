import GraphLoom.Query.Result
import Mathlib.Data.List.AList

/-!
# The search of a DRIFT query

The actions are identified by their queries: a follow-up with a query that is already there shares
its node.  The id of a node is its position.

Each round shuffles the incomplete actions, takes the first few, and executes them with at most
`concurrency` of them in flight.  Their responses are applied in the order in which the actions were
picked, once all of them are there; the first error ends the loop.
-/

namespace GraphLoom.Query.Drift

open Foundation

section ActionGraph

/-- Scores are of type `ω`, with `⊥` for negative infinity; `κ` is the type of contexts. -/
structure DriftActionResponse (ω : Type) where
  answer : Option String
  score : ω
  followUpQueries : List String

structure DriftActionMetadata (κ : Type) where
  usage : QueryUsageCategory
  context : Option κ

structure DriftAction (ω κ : Type) where
  id : ℕ
  query : String
  answer : Option String
  score : ω
  metadata : DriftActionMetadata κ

structure DriftEdge (ω : Type) where
  source : ℕ
  target : ℕ
  weight : ω
deriving DecidableEq, Repr

structure DriftQueryState (ω κ : Type) where
  nodes : List (DriftAction ω κ)
  idsByQuery : AList fun _ : String => ℕ
  edges : List (DriftEdge ω)

variable {ω κ : Type} [Bot ω] [One ω]

/-- `Default::default`. -/
def DriftActionMetadata.none : DriftActionMetadata κ where
  usage := .none
  context := .none

def DriftActionResponse.fallback : DriftActionResponse ω where
  answer := .none
  score := ⊥
  followUpQueries := []

def DriftAction.incomplete (id : ℕ) (query : String) : DriftAction ω κ where
  id
  query
  answer := .none
  score := ⊥
  metadata := .none

namespace DriftQueryState

/-- `Default::default`. -/
def empty : DriftQueryState ω κ := ⟨[], ∅, []⟩

/-- The id of a query, which gets a node when it has none. -/
def addOrGet (s : DriftQueryState ω κ) (query : String) : ℕ × DriftQueryState ω κ :=
  match s.idsByQuery.lookup query with
  | some id => (id, s)
  | none =>
    (s.nodes.length,
      { s with
        idsByQuery := s.idsByQuery.insert query s.nodes.length
        nodes := s.nodes ++ [.incomplete s.nodes.length query] })

/-- One follow-up of a node. -/
def addFollowup (source : ℕ) (s : DriftQueryState ω κ) (followup : String) :
    DriftQueryState ω κ :=
  let (target, s) := s.addOrGet followup
  { s with edges := s.edges ++ [⟨source, target, 1⟩] }

/-- Change the action with an id, if there is one. -/
def updateAction (s : DriftQueryState ω κ) (id : ℕ) (f : DriftAction ω κ → DriftAction ω κ) :
    DriftQueryState ω κ :=
  { s with nodes := s.nodes.modify id f }

def addRoot (s : DriftQueryState ω κ) (query answer : String) (score : ω)
    (followups : List String) : DriftQueryState ω κ :=
  let (root, s) := s.addOrGet query
  let s := s.updateAction root fun action => { action with answer := some answer, score }
  followups.foldl (addFollowup root) s

def incompleteIds (s : DriftQueryState ω κ) : List ℕ :=
  (s.nodes.filter fun action => action.answer.isNone).map DriftAction.id

def query (s : DriftQueryState ω κ) (id : ℕ) : Option String :=
  s.nodes[id]?.map DriftAction.query

/-- The error for an id that no action has. -/
def absentAction (operation : String) (id : ℕ) : QueryError :=
  .queryContext .drift operation ("action id " ++ toString id ++ " is absent")

/-- Record what an action responded. -/
def apply (s : DriftQueryState ω κ) (id : ℕ) (response : DriftActionResponse ω)
    (metadata : DriftActionMetadata κ) : Except QueryError Unit × DriftQueryState ω κ :=
  if id < s.nodes.length then
    let s := s.updateAction id fun action =>
      { action with answer := response.answer, score := response.score, metadata }
    (.ok (), response.followUpQueries.foldl (addFollowup id) s)
  else (.error (absentAction "update DRIFT action state" id), s)

end DriftQueryState

/-- The calls that change a state. -/
inductive DriftCall (ω κ : Type) where
  | addRoot (query answer : String) (score : ω) (followups : List String)
  | apply (id : ℕ) (response : DriftActionResponse ω) (metadata : DriftActionMetadata κ)

def DriftCall.run (call : DriftCall ω κ) (s : DriftQueryState ω κ) : DriftQueryState ω κ :=
  match call with
  | .addRoot query answer score followups => s.addRoot query answer score followups
  | .apply id response metadata => (s.apply id response metadata).2

/-- A state under any sequence of calls. -/
def driftQueryState (ω κ : Type) [Bot ω] [One ω] :
    System (DriftQueryState ω κ) (DriftCall ω κ) where
  init s := s = .empty
  step s call t := t = call.run s

end ActionGraph

/-! ## The depth loop of a DRIFT query -/

section DepthLoop

variable {ω κ : Type} [Bot ω] [One ω]

structure DriftConfig where
  nDepth : ℕ
  driftKFollowups : ℕ
  concurrency : ℕ

/-- What the execution of an action returns. -/
abbrev ActionResult (ω κ : Type) := DriftActionResponse ω × DriftActionMetadata κ

/-- A round: the picked actions, the calls for their queries (with the id of the action and the
position in the round), and the results that are there. -/
structure DriftRound (ω κ : Type) where
  selected : List ℕ
  calls : Buffer ((ℕ × String) × ℕ)
  completed : List (ℕ × ActionResult ω κ)

/-- The state of the loop. -/
structure DepthState (ω κ : Type) where
  state : DriftQueryState ω κ
  -- the rounds that have not begun
  remaining : ℕ
  round : Option (DriftRound ω κ)
  total : QueryUsageCategory
  returned : Option (Except QueryError QueryUsageCategory)
  -- the trace: the actions in the order in which their executions start, and those whose response
  -- was applied and had no answer
  executed : List ℕ
  unanswered : List ℕ

/-- `select_actions`, when the generator shuffles the incomplete actions to `shuffled`. -/
def selectActions (shuffled : List ℕ) (limit : ℕ) : List ℕ := shuffled.take limit

/-- The queries of the picked actions. -/
def selectedQueries (s : DriftQueryState ω κ) (selected : List ℕ) : Except QueryError (List String) :=
  selected.mapM fun id =>
    match s.query id with
    | some query => .ok query
    | none => .error (DriftQueryState.absentAction "select DRIFT incomplete actions" id)

/-- Apply the results of a round in order, up to the first error. -/
def applyResults : List (ℕ × ActionResult ω κ) → DepthState ω κ → Except QueryError Unit × DepthState ω κ
  | [], s => (.ok (), s)
  | (id, response, metadata) :: results, s =>
    let total := s.total.saturatingAdd metadata.usage
    match s.state.apply id response metadata with
    | (.error error, state) => (.error error, { s with total, state })
    | (.ok (), state) =>
      let unanswered := if response.answer.isNone then s.unanswered ++ [id] else s.unanswered
      applyResults results { s with total, state, unanswered }

/-- What ends a round: its results in order, each for its action. -/
def DriftRound.results (round : DriftRound ω κ) : List (ℕ × ActionResult ω κ) :=
  round.selected.zip ((round.completed.insertionSort fun a b => a.1 ≤ b.1).map Prod.snd)

/-- The loop returns. -/
def DepthState.return (s : DepthState ω κ) (result : Except QueryError QueryUsageCategory) :
    DepthState ω κ :=
  { s with round := none, returned := some result }

/-- The loop goes on once the results of a round are applied. -/
def DepthState.finishRound (s : DepthState ω κ) (round : DriftRound ω κ) : DepthState ω κ :=
  match applyResults round.results s with
  | (.ok (), s) => { s with round := none }
  | (.error error, s) => s.return (.error error)

inductive DepthAction (ω κ : Type) where
  | select (shuffled : List ℕ)
  | start (id : ℕ)
  | completed (id : ℕ) (result : Except QueryError (ActionResult ω κ))
  | finish

/-- The steps of the loop, for every generator and every execution of the actions. -/
inductive DepthStep (config : DriftConfig) (s : DepthState ω κ) :
    DepthAction ω κ → DepthState ω κ → Prop
  | exhausted (waits : s.returned = none) (between : s.round = none) (last : s.remaining = 0) :
      DepthStep config s .finish (s.return (.ok s.total))
  | shuffleFailed {rest : ℕ} {error : QueryError} (waits : s.returned = none)
      (between : s.round = none) (more : s.remaining = rest + 1) :
      DepthStep config s .finish ({ s with remaining := rest }.return (.error error))
  | nothingLeft {rest : ℕ} {shuffled : List ℕ} (waits : s.returned = none)
      (between : s.round = none) (more : s.remaining = rest + 1)
      (shuffles : shuffled.Perm s.state.incompleteIds)
      (empty : selectActions shuffled config.driftKFollowups = []) :
      DepthStep config s (.select shuffled) ({ s with remaining := rest }.return (.ok s.total))
  | absent {rest : ℕ} {shuffled : List ℕ} {error : QueryError} (waits : s.returned = none)
      (between : s.round = none) (more : s.remaining = rest + 1)
      (shuffles : shuffled.Perm s.state.incompleteIds)
      (queries : selectedQueries s.state (selectActions shuffled config.driftKFollowups) =
        .error error) :
      DepthStep config s (.select shuffled) ({ s with remaining := rest }.return (.error error))
  | selected {rest : ℕ} {shuffled selected : List ℕ} {queries : List String}
      (waits : s.returned = none) (between : s.round = none) (more : s.remaining = rest + 1)
      (shuffles : shuffled.Perm s.state.incompleteIds)
      (selects : selected = selectActions shuffled config.driftKFollowups)
      (nonempty : selected ≠ []) (found : selectedQueries s.state selected = .ok queries) :
      DepthStep config s (.select shuffled)
        { s with
          remaining := rest
          round := some ⟨selected, .full (selected.zip queries).zipIdx, []⟩ }
  | started {round : DriftRound ω κ} {id position : ℕ} {query : String}
      {waiting : List ((ℕ × String) × ℕ)} (waits : s.returned = none)
      (inRound : s.round = some round)
      (next : round.calls.waiting = ((id, query), position) :: waiting)
      (room : round.calls.running.length < max config.concurrency 1) :
      DepthStep config s (.start id)
        { s with
          round := some { round with
            calls := ⟨waiting, round.calls.running ++ [((id, query), position)]⟩ }
          executed := s.executed ++ [id] }
  | responded {round : DriftRound ω κ} {id position : ℕ} {query : String}
      {calls : Buffer ((ℕ × String) × ℕ)} {result : ActionResult ω κ} (waits : s.returned = none)
      (inRound : s.round = some round)
      (poll : Buffer.Poll (max config.concurrency 1) round.calls (some ((id, query), position))
        calls) :
      DepthStep config s (.completed id (.ok result))
        { s with
          round := some { round with
            calls, completed := round.completed ++ [(position, result)] } }
  -- the calls in flight are dropped
  | failed {round : DriftRound ω κ} {id position : ℕ} {query : String}
      {calls : Buffer ((ℕ × String) × ℕ)} {error : QueryError} (waits : s.returned = none)
      (inRound : s.round = some round)
      (poll : Buffer.Poll (max config.concurrency 1) round.calls (some ((id, query), position))
        calls) :
      DepthStep config s (.completed id (.error error)) (s.return (.error error))
  | finished {round : DriftRound ω κ} (waits : s.returned = none) (inRound : s.round = some round)
      (drained : round.calls.Drained) :
      DepthStep config s .finish (s.finishRound round)

/-- `run_depths` on a state. -/
def runDepths (config : DriftConfig) (state : DriftQueryState ω κ) :
    System (DepthState ω κ) (DepthAction ω κ) where
  init s := s = ⟨state, config.nDepth, none, .none, none, [], []⟩
  step := DepthStep config

end DepthLoop

end GraphLoom.Query.Drift
