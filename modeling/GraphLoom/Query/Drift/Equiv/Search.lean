import GraphLoom.Query.Drift.Equiv.State
import Mathlib.Algebra.Order.Monoid.Unbundled.WithTop
import Mathlib.Data.List.Count

/-!
## The depth loop of a DRIFT query

* `runDepths_holds`: the loop executes at most `nDepth * driftKFollowups` actions, each of them
  incomplete when it is picked, and an action once more only after executions without an answer.
* `driftQueryState_consistent`: that, together with the consistency of the action graph.

The count of an action's executions is balanced against its responses without an answer: while an
action is incomplete, what was executed and what waits in the round is what came back without an
answer and what the round picked (`DepthState.Holds.settled`).
-/

namespace GraphLoom.Query.Drift

open Foundation DriftQueryState

variable {ω κ : Type}

/-- The actions that the round has yet to execute. -/
def DepthState.waitingIds (s : DepthState ω κ) : List ℕ :=
  match s.round with
  | some round => round.calls.waiting.map fun call => call.1.1
  | none => []

/-- The actions that the round picked. -/
def DepthState.selectedIds (s : DepthState ω κ) : List ℕ :=
  match s.round with
  | some round => round.selected
  | none => []

/-- What holds in every state of the loop. -/
structure DepthState.Holds (config : DriftConfig) (s : DepthState ω κ) : Prop where
  wellFormed : s.state.WellFormed
  bound : s.executed.length + s.waitingIds.length + s.remaining * config.driftKFollowups ≤
    config.nDepth * config.driftKFollowups
  executed : ∀ id ∈ s.executed, id < s.state.nodes.length
  unanswered : ∀ id ∈ s.unanswered, id < s.state.nodes.length
  count : ∀ id, s.executed.count id ≤ s.unanswered.count id + 1
  /-- The executions of an incomplete action are accounted for. -/
  settled : s.returned = none → ∀ id ∈ s.state.incompleteIds,
    s.executed.count id + s.waitingIds.count id = s.unanswered.count id + s.selectedIds.count id
  nodup : s.selectedIds.Nodup
  /-- The picked actions stay incomplete until their responses are applied. -/
  incomplete : ∀ id ∈ s.selectedIds, id ∈ s.state.incompleteIds
  waiting : ∀ id ∈ s.waitingIds, id ∈ s.selectedIds
  /-- Every picked action has a call or a result. -/
  calls : ∀ round, s.round = some round →
    round.completed.length + round.calls.pending.length = round.selected.length

/-! ### Applying the results of a round -/

/-- What holds while the results of a round are applied: `results` are those that are left. -/
structure Applying (results : List (ℕ × ActionResult ω κ)) (s : DepthState ω κ) : Prop where
  wellFormed : s.state.WellFormed
  nodup : (results.map Prod.fst).Nodup
  incomplete : ∀ id ∈ results.map Prod.fst, id ∈ s.state.incompleteIds
  executed : ∀ id ∈ s.executed, id < s.state.nodes.length
  unanswered : ∀ id ∈ s.unanswered, id < s.state.nodes.length
  count : ∀ id, s.executed.count id ≤ s.unanswered.count id + 1
  settled : ∀ id ∈ s.state.incompleteIds,
    s.executed.count id = s.unanswered.count id + (results.map Prod.fst).count id

/-- The rest of the state when results are applied. -/
structure SameRest (s t : DepthState ω κ) : Prop where
  executed : t.executed = s.executed
  remaining : t.remaining = s.remaining
  returned : t.returned = s.returned

variable [Bot ω] [One ω] {config : DriftConfig} {s t : DepthState ω κ} {action : DepthAction ω κ}

/-- One result. -/
theorem Applying.step {id : ℕ} {response : DriftActionResponse ω} {metadata : DriftActionMetadata κ}
    {results : List (ℕ × ActionResult ω κ)} (h : Applying ((id, response, metadata) :: results) s) :
    (s.state.apply id response metadata).1 = .ok () ∧
      Applying results { s with
        total := s.total.saturatingAdd metadata.usage
        state := (s.state.apply id response metadata).2
        unanswered := if response.answer.isNone then s.unanswered ++ [id] else s.unanswered } := by
  obtain ⟨hnotMem, hnodup⟩ := List.nodup_cons.mp h.nodup
  have hid : id ∈ s.state.incompleteIds := h.incomplete id (List.mem_cons_self ..)
  have hlt := h.wellFormed.lt_of_mem_incompleteIds hid
  obtain ⟨hok, hwf, -, hle, hincomplete⟩ := apply_spec h.wellFormed hlt response metadata
  have hmono : ∀ j, s.unanswered.count j ≤
      (if response.answer.isNone then s.unanswered ++ [id] else s.unanswered).count j := by
    intro j
    split
    · rw [List.count_append]
      omega
    · exact le_rfl
  refine ⟨hok, hwf, hnodup, ?_, ?_, ?_, ?_, ?_⟩
  · intro j hj
    have hne : j ≠ id := by
      rintro rfl
      exact hnotMem hj
    have hj' := h.incomplete j (List.mem_cons_of_mem _ hj)
    rw [hincomplete, ite_cond_eq_false _ _ (eq_false hne),
      ite_cond_eq_true _ _ (eq_true (h.wellFormed.lt_of_mem_incompleteIds hj'))]
    exact hj'
  · intro j hj
    exact lt_of_lt_of_le (h.executed j hj) hle
  · intro j hj
    split at hj
    · rcases List.mem_append.mp hj with hj | hj
      · exact lt_of_lt_of_le (h.unanswered j hj) hle
      · rw [List.mem_singleton.mp hj]
        exact lt_of_lt_of_le hlt hle
    · exact lt_of_lt_of_le (h.unanswered j hj) hle
  · intro j
    exact (h.count j).trans (Nat.add_le_add_right (hmono j) 1)
  · intro j hj
    rw [hincomplete] at hj
    by_cases hjid : j = id
    · -- the action came back without an answer
      subst hjid
      rw [ite_cond_eq_true _ _ (eq_true rfl)] at hj
      have hsettled := h.settled j hid
      rw [List.map_cons, List.count_cons_self] at hsettled
      simp only [hj, Option.isNone_none, ↓reduceIte, List.count_append, List.count_singleton_self]
      omega
    · have hsame : (if response.answer.isNone then s.unanswered ++ [id] else s.unanswered).count j =
          s.unanswered.count j := by
        split
        · rw [List.count_append, List.count_singleton]
          simp [Ne.symm hjid]
        · rfl
      rw [ite_cond_eq_false _ _ (eq_false hjid)] at hj
      show s.executed.count j = List.count j _ + _
      rw [hsame]
      split at hj
      · have hsettled := h.settled j hj
        rwa [List.map_cons, List.count_cons_of_ne (Ne.symm hjid)] at hsettled
      · next hnew =>
        -- a new action has no executions
        rw [List.count_eq_zero.mpr fun hmem => hnew (h.executed j hmem),
          List.count_eq_zero.mpr fun hmem => hnew (h.unanswered j hmem),
          List.count_eq_zero.mpr fun hmem => hnew (h.wellFormed.lt_of_mem_incompleteIds
            (h.incomplete j (List.mem_cons_of_mem _ hmem)))]

/-- All results. -/
theorem Applying.applyResults {results : List (ℕ × ActionResult ω κ)} (h : Applying results s) :
    (applyResults results s).1 = .ok () ∧ Applying [] (applyResults results s).2 ∧
      SameRest s (Drift.applyResults results s).2 := by
  induction results generalizing s with
  | nil => exact ⟨rfl, h, rfl, rfl, rfl⟩
  | cons result results ih =>
    obtain ⟨id, response, metadata⟩ := result
    obtain ⟨hok, hstep⟩ := h.step
    obtain ⟨hok', happlied, hrest⟩ := ih hstep
    have heq : Drift.applyResults ((id, response, metadata) :: results) s =
        Drift.applyResults results { s with
          total := s.total.saturatingAdd metadata.usage
          state := (s.state.apply id response metadata).2
          unanswered := if response.answer.isNone then s.unanswered ++ [id] else s.unanswered } := by
      have hpair : s.state.apply id response metadata =
          (.ok (), (s.state.apply id response metadata).2) := Prod.ext hok rfl
      rw [Drift.applyResults, hpair]
    rw [heq]
    exact ⟨hok', happlied, hrest.executed, hrest.remaining, hrest.returned⟩

/-! ### Steps -/

omit [Bot ω] [One ω] in
/-- Returning keeps what holds. -/
theorem DepthState.Holds.return (h : s.Holds config)
    (result : Except QueryError QueryUsageCategory) : (s.return result).Holds config where
  wellFormed := h.wellFormed
  bound := by
    show s.executed.length + 0 + _ ≤ _
    have hbound := h.bound
    show s.executed.length + 0 + s.remaining * config.driftKFollowups ≤ _
    omega
  executed := h.executed
  unanswered := h.unanswered
  count := h.count
  settled hreturned := by cases hreturned
  nodup := List.nodup_nil
  incomplete _ hid := absurd hid List.not_mem_nil
  waiting _ hid := absurd hid List.not_mem_nil
  calls _ hround := by cases hround

omit [Bot ω] [One ω] in
/-- A round that picks nothing, or that cannot begin. -/
theorem DepthState.Holds.skip (h : s.Holds config) {rest : ℕ} (hmore : s.remaining = rest + 1) :
    ({ s with remaining := rest } : DepthState ω κ).Holds config where
  wellFormed := h.wellFormed
  bound := by
    have hbound := h.bound
    rw [hmore, Nat.succ_mul] at hbound
    show s.executed.length + s.waitingIds.length + rest * config.driftKFollowups ≤ _
    omega
  executed := h.executed
  unanswered := h.unanswered
  count := h.count
  settled := h.settled
  nodup := h.nodup
  incomplete := h.incomplete
  waiting := h.waiting
  calls := h.calls

omit [Bot ω] [One ω] in
variable {state : DriftQueryState ω κ}

/-- The picked actions have their queries. -/
theorem selectedQueries_length {selected : List ℕ}
    {queries : List String} (h : selectedQueries state selected = .ok queries) :
    queries.length = selected.length :=
  (mapM_eq_ok_iff.mp h).length_eq.symm

omit [Bot ω] [One ω] in
/-- A round begins. -/
theorem DepthState.Holds.selected (h : s.Holds config) {rest : ℕ} {shuffled selected : List ℕ}
    {queries : List String} (hround : s.round = none) (hmore : s.remaining = rest + 1)
    (hshuffled : shuffled.Perm s.state.incompleteIds)
    (hselected : selected = selectActions shuffled config.driftKFollowups)
    (hqueries : selectedQueries s.state selected = .ok queries) :
    ({ s with
        remaining := rest
        round := some ⟨selected, .full (selected.zip queries).zipIdx, []⟩ } :
      DepthState ω κ).Holds config := by
  have hlength := selectedQueries_length hqueries
  have hids : (selected.zip queries).zipIdx.map (fun call => call.1.1) = selected := by
    rw [show (fun call : (ℕ × String) × ℕ => call.1.1) = Prod.fst ∘ Prod.fst from rfl,
      ← List.map_map, List.zipIdx_map_fst, List.map_fst_zip hlength.ge]
  have hsub : selected.Sublist shuffled := by
    rw [hselected]
    exact List.take_sublist _ _
  have hnodup : selected.Nodup :=
    (hshuffled.nodup_iff.mpr h.wellFormed.incompleteIds_nodup).sublist hsub
  have hwaiting : s.waitingIds = [] := by
    rw [waitingIds, hround]
  have hselectedIds : s.selectedIds = [] := by
    rw [selectedIds, hround]
  constructor
  · exact h.wellFormed
  · have hbound := h.bound
    have hk : selected.length ≤ config.driftKFollowups := by
      rw [hselected]
      exact List.length_take_le _ _
    rw [hmore, Nat.succ_mul] at hbound
    show s.executed.length + ((selected.zip queries).zipIdx.map fun call => call.1.1).length +
      rest * config.driftKFollowups ≤ _
    rw [hids]
    omega
  · exact h.executed
  · exact h.unanswered
  · exact h.count
  · intro hreturned id hid
    have hsettled := h.settled hreturned id hid
    rw [hwaiting, hselectedIds] at hsettled
    show s.executed.count id + ((selected.zip queries).zipIdx.map fun call => call.1.1).count id =
      s.unanswered.count id + selected.count id
    rw [hids]
    simp only [List.count_nil] at hsettled
    omega
  · exact hnodup
  · intro id hid
    exact hshuffled.mem_iff.mp (hsub.subset hid)
  · intro id hid
    change id ∈ (selected.zip queries).zipIdx.map (fun call => call.1.1) at hid
    rwa [hids] at hid
  · intro round hround
    obtain rfl := Option.some.inj hround
    show 0 + ((selected.zip queries).zipIdx ++ []).length = selected.length
    rw [List.append_nil, List.length_zipIdx, List.length_zip]
    omega

omit [Bot ω] [One ω] in
/-- An action is executed. -/
theorem DepthState.Holds.started (h : s.Holds config) {round : DriftRound ω κ} {id position : ℕ}
    {query : String} {waiting : List ((ℕ × String) × ℕ)} (hreturned : s.returned = none)
    (hround : s.round = some round)
    (hnext : round.calls.waiting = ((id, query), position) :: waiting) :
    ({ s with
        round := some { round with
          calls := ⟨waiting, round.calls.running ++ [((id, query), position)]⟩ }
        executed := s.executed ++ [id] } : DepthState ω κ).Holds config := by
  have hwaiting : s.waitingIds = id :: waiting.map fun call => call.1.1 := by
    rw [waitingIds, hround]
    show round.calls.waiting.map _ = _
    rw [hnext]
    rfl
  have hselected : s.selectedIds = round.selected := by
    rw [selectedIds, hround]
  have hid : id ∈ s.selectedIds := h.waiting id (by rw [hwaiting]; exact List.mem_cons_self ..)
  have hincomplete := h.incomplete id hid
  constructor
  · exact h.wellFormed
  · have hbound := h.bound
    rw [hwaiting, List.length_cons] at hbound
    show (s.executed ++ [id]).length + (waiting.map fun call => call.1.1).length +
      s.remaining * config.driftKFollowups ≤ _
    rw [List.length_append, List.length_singleton]
    omega
  · intro j hj
    rcases List.mem_append.mp hj with hj | hj
    · exact h.executed j hj
    · rw [List.mem_singleton.mp hj]
      exact h.wellFormed.lt_of_mem_incompleteIds hincomplete
  · exact h.unanswered
  · intro j
    show (s.executed ++ [id]).count j ≤ s.unanswered.count j + 1
    rw [List.count_append]
    by_cases hj : j = id
    · -- the action was waiting, so that its executions all came back without an answer
      subst hj
      have hsettled := h.settled hreturned j hincomplete
      have hone : s.selectedIds.count j ≤ 1 := List.nodup_iff_count_le_one.mp h.nodup j
      rw [hwaiting, List.count_cons_self] at hsettled
      rw [List.count_singleton_self]
      omega
    · have hcount := h.count j
      rw [List.count_singleton]
      simp only [beq_iff_eq, Ne.symm hj, ↓reduceIte]
      omega
  · intro _ j hj
    have hsettled := h.settled hreturned j hj
    rw [hwaiting, hselected, List.count_cons] at hsettled
    show (s.executed ++ [id]).count j + (waiting.map fun call => call.1.1).count j =
      s.unanswered.count j + round.selected.count j
    rw [List.count_append, List.count_singleton]
    omega
  · rw [← hselected]
    exact h.nodup
  · intro j hj
    exact h.incomplete j (by rw [hselected]; exact hj)
  · intro j hj
    have hj' := h.waiting j (by rw [hwaiting]; exact List.mem_cons_of_mem _ hj)
    rwa [hselected] at hj'
  · intro round' hround'
    obtain rfl := Option.some.inj hround'
    have hcalls := h.calls round hround
    rw [Buffer.pending, hnext] at hcalls
    show round.completed.length + (waiting ++ (round.calls.running ++ [((id, query), position)])).length =
      round.selected.length
    simp only [List.length_append, List.length_cons, List.length_nil] at hcalls ⊢
    omega

omit [Bot ω] [One ω] in
/-- A result comes back. -/
theorem DepthState.Holds.responded (h : s.Holds config) {round : DriftRound ω κ} {limit : ℕ}
    {call : (ℕ × String) × ℕ} {calls : Buffer ((ℕ × String) × ℕ)} {result : ActionResult ω κ}
    (hround : s.round = some round) (hpoll : Buffer.Poll limit round.calls (some call) calls) :
    ({ s with
        round := some { round with calls, completed := round.completed ++ [(call.2, result)] } } :
      DepthState ω κ).Holds config := by
  have hwaiting : s.waitingIds = calls.waiting.map fun call => call.1.1 := by
    rw [waitingIds, hround, hpoll.waiting_eq]
  have hselected : s.selectedIds = round.selected := by
    rw [selectedIds, hround]
  constructor
  · exact h.wellFormed
  · have hbound := h.bound
    rw [hwaiting] at hbound
    exact hbound
  · exact h.executed
  · exact h.unanswered
  · exact h.count
  · intro hreturned id hid
    have hsettled := h.settled hreturned id hid
    rw [hwaiting, hselected] at hsettled
    exact hsettled
  · rw [← hselected]
    exact h.nodup
  · intro id hid
    exact h.incomplete id (by rw [hselected]; exact hid)
  · intro id hid
    have hid' := h.waiting id (by rw [hwaiting]; exact hid)
    rwa [hselected] at hid'
  · intro round' hround'
    obtain rfl := Option.some.inj hround'
    have hcalls := h.calls round hround
    have hpending := hpoll.pending_perm.length_eq
    show (round.completed ++ [(call.2, result)]).length + calls.pending.length =
      round.selected.length
    rw [List.length_append] at hpending ⊢
    change _ = 1 + _ at hpending
    rw [List.length_singleton]
    omega

/-- A round ends, without an error. -/
theorem DepthState.Holds.finished (h : s.Holds config) {round : DriftRound ω κ}
    (hreturned : s.returned = none) (hround : s.round = some round)
    (hdrained : round.calls.Drained) : (s.finishRound round).Holds config := by
  have hwaiting : s.waitingIds = [] := by
    rw [waitingIds, hround]
    show round.calls.waiting.map _ = []
    rw [hdrained.1]
    rfl
  have hselected : s.selectedIds = round.selected := by
    rw [selectedIds, hround]
  -- every picked action has a result
  have hlength : round.completed.length = round.selected.length := by
    have hcalls := h.calls round hround
    rw [Buffer.pending, hdrained.1, hdrained.2] at hcalls
    exact hcalls
  have hids : round.results.map Prod.fst = round.selected := by
    rw [DriftRound.results, List.map_fst_zip]
    rw [List.length_map, List.length_insertionSort]
    exact hlength.ge
  have happlying : Applying round.results s := by
    constructor
    · exact h.wellFormed
    · rw [hids, ← hselected]
      exact h.nodup
    · intro id hid
      rw [hids, ← hselected] at hid
      exact h.incomplete id hid
    · exact h.executed
    · exact h.unanswered
    · exact h.count
    · intro id hid
      have hsettled := h.settled hreturned id hid
      rwa [hwaiting, hselected, List.count_nil, Nat.add_zero, ← hids] at hsettled
  obtain ⟨hok, happlied, hrest⟩ := happlying.applyResults
  have hpair : applyResults round.results s = (.ok (), (applyResults round.results s).2) :=
    Prod.ext hok rfl
  have heq : s.finishRound round = { (applyResults round.results s).2 with round := none } := by
    rw [finishRound, hpair]
  rw [heq]
  constructor
  · exact happlied.wellFormed
  · have hbound := h.bound
    rw [hwaiting] at hbound
    show (applyResults round.results s).2.executed.length + 0 +
      (applyResults round.results s).2.remaining * config.driftKFollowups ≤ _
    rw [hrest.executed, hrest.remaining]
    exact hbound
  · exact happlied.executed
  · exact happlied.unanswered
  · exact happlied.count
  · intro _ id hid
    exact happlied.settled id hid
  · exact List.nodup_nil
  · intro id hid
    exact absurd hid List.not_mem_nil
  · intro id hid
    exact absurd hid List.not_mem_nil
  · intro round' hround'
    cases hround'

/-- Every step of the loop keeps what holds. -/
theorem DepthState.Holds.step (h : s.Holds config) (hstep : DepthStep config s action t) :
    t.Holds config := by
  cases hstep with
  | exhausted => exact h.return _
  | shuffleFailed waits between more => exact (h.skip more).return _
  | nothingLeft waits between more => exact (h.skip more).return _
  | absent waits between more => exact (h.skip more).return _
  | selected waits between more shuffles selects nonempty found =>
    exact h.selected between more shuffles selects found
  | started waits inRound next room => exact h.started waits inRound next
  | responded waits inRound poll => exact h.responded inRound poll
  | failed => exact h.return _
  | finished waits inRound drained => exact h.finished waits inRound drained

/-- **The depth loop on a consistent graph.** -/
theorem runDepths_holds (hstate : state.WellFormed)
    (h : (runDepths config state).Reachable s) : s.Holds config := by
  refine System.Reachable.invariant (fun s hs => ?_) (fun s a t _ hs hstep => hs.step hstep) h
  rw [show s = _ from hs]
  constructor
  · exact hstate
  · show 0 + 0 + config.nDepth * config.driftKFollowups ≤ _
    omega
  · exact fun id hid => absurd hid List.not_mem_nil
  · exact fun id hid => absurd hid List.not_mem_nil
  · exact fun id => Nat.zero_le _
  · exact fun _ id _ => rfl
  · exact List.nodup_nil
  · exact fun id hid => absurd hid List.not_mem_nil
  · exact fun id hid => absurd hid List.not_mem_nil
  · intro round hround
    cases hround

/-- **The action graph and the depth loop over it**: after every sequence of calls the graph is
consistent, its nodes stay, an unknown id changes nothing, and its actions are incomplete or
answered; the depth loop from there executes at most `nDepth * driftKFollowups` actions, picks
incomplete ones, and executes one again only after executions without an answer. -/
theorem driftQueryState_consistent {state : DriftQueryState ω κ}
    (h : (driftQueryState ω κ).Reachable state) :
    state.WellFormed ∧ (state.nodes.map DriftAction.query).Nodup ∧
    (∀ calls state', (driftQueryState ω κ).Run state calls state' → state.Extends state') ∧
    (∀ id response metadata, state.nodes.length ≤ id → state.apply id response metadata =
      (.error (absentAction "update DRIFT action state" id), state)) ∧
    (state.incompleteIds ++ state.answeredIds).Perm (List.range state.nodes.length) ∧
    ∀ config s, (runDepths config state).Reachable s →
      s.executed.length ≤ config.nDepth * config.driftKFollowups ∧
      (∀ id ∈ s.selectedIds, id ∈ s.state.incompleteIds) ∧
      ∀ id, s.executed.count id ≤ s.unanswered.count id + 1 := by
  have hwf := driftQueryState_wellFormed h
  refine ⟨hwf, hwf.queries_nodup, fun calls state' hrun => driftQueryState_extends h hrun,
    fun id response metadata hid => apply_of_le hid response metadata,
    hwf.incompleteIds_append_answeredIds_perm, fun config s hs => ?_⟩
  have hholds := runDepths_holds hwf hs
  have hbound := hholds.bound
  exact ⟨by omega, hholds.incomplete, hholds.count⟩

/-! ### An action without an answer -/

/-- A root with one follow-up. -/
def sampleState : DriftQueryState (WithBot ℕ) Unit :=
  empty.addRoot "root" "answer" 50 ["next"]

def sampleConfig : DriftConfig := ⟨2, 1, 1⟩

theorem runDepths_reachable_step
    (h : (runDepths config state).Reachable s) (hstep : DepthStep config s action t) :
    (runDepths config state).Reachable t :=
  h.step hstep

/-- The response of the follow-up has no answer. -/
def sampleResult : ActionResult (WithBot ℕ) Unit := (.fallback, .none)

/-- **An action can be executed again**: one whose response has no answer stays incomplete. -/
theorem runDepths_executes_again :
    ¬ ∀ s, (runDepths sampleConfig sampleState).Reachable s → s.executed.Nodup := by
  intro h
  have hinit : (runDepths sampleConfig sampleState).Reachable
      ⟨sampleState, 2, none, .none, none, [], []⟩ := .init rfl
  have hselected : (runDepths sampleConfig sampleState).Reachable
      ⟨sampleState, 1, some ⟨[1], ⟨[((1, "next"), 0)], []⟩, []⟩, .none, none, [], []⟩ :=
    runDepths_reachable_step hinit (@DepthStep.selected _ _ _ _ sampleConfig _ 1 [1] [1] ["next"]
      rfl rfl rfl (.refl _) rfl (by decide) rfl)
  have hstarted : (runDepths sampleConfig sampleState).Reachable
      ⟨sampleState, 1, some ⟨[1], ⟨[], [] ++ ((1, "next"), 0) :: []⟩, []⟩, .none, none, [1], []⟩ :=
    runDepths_reachable_step hselected (@DepthStep.started _ _ _ _ sampleConfig _
      ⟨[1], ⟨[((1, "next"), 0)], []⟩, []⟩ 1 0 "next" [] rfl rfl rfl (by decide))
  have hresponded : (runDepths sampleConfig sampleState).Reachable
      ⟨sampleState, 1, some ⟨[1], ⟨[], []⟩, [(0, sampleResult)]⟩, .none, none, [1], []⟩ :=
    runDepths_reachable_step hstarted (@DepthStep.responded _ _ _ _ sampleConfig _
      ⟨[1], ⟨[], [] ++ ((1, "next"), 0) :: []⟩, []⟩ 1 0 "next" ⟨[], [] ++ []⟩ sampleResult rfl rfl
      .complete)
  have hfinished := runDepths_reachable_step hresponded (.finished rfl rfl ⟨rfl, rfl⟩)
  have hagain := runDepths_reachable_step hfinished
    (@DepthStep.selected _ _ _ _ sampleConfig _ 0 [1] [1] ["next"]
      rfl rfl rfl (.refl _) rfl (by decide) rfl)
  have hexecuted := runDepths_reachable_step hagain
    (@DepthStep.started _ _ _ _ sampleConfig _ ⟨[1], ⟨[((1, "next"), 0)], []⟩, []⟩ 1 0 "next" []
      rfl rfl rfl (by decide))
  have hnodup : [1, 1].Nodup := h _ hexecuted
  exact absurd hnodup (by decide)

theorem driftQueryState_consistent_sample : sampleState.WellFormed :=
  (driftQueryState_consistent
    (System.Reachable.step (.init rfl) (show sampleState =
      (DriftCall.addRoot "root" "answer" 50 ["next"]).run .empty from rfl))).1

end GraphLoom.Query.Drift
