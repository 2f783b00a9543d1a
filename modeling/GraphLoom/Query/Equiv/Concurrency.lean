import GraphLoom.Query.Result

/-!
# The loop runs the futures with a limit

The loop is a run of futures with a limit, in which a completion and the start that follows it are
one step (`BufferedOrdered.reachable`).  So it returns what running the futures one after another
gives, never has more than the limit in flight, and goes on until it returns.
-/

namespace GraphLoom.Query

open Foundation

universe u

variable {ι ε : Type*} {β : Type u} {f : ι × ℕ → Except ε β} {items : List ι} {concurrency : ℕ}
  {s t : BufferedOrdered ι ε β} {label : Option (ι × ℕ)}

/-- What is in flight; while futures wait, as many as may be. -/
structure BufferedOrdered.Holds (limit : ℕ) (s : BufferedOrdered ι ε β) : Prop where
  bounded : s.pending.length ≤ limit
  full : s.returned = none → s.futures ≠ [] → s.pending.length = limit

theorem BufferedOrdered.Holds.step {limit : ℕ} (h : s.Holds limit)
    (hstep : BufferedOrderedStep f s label t) : t.Holds limit := by
  have hbounded := h.bounded
  cases hstep with
  | @completed before after item value waits pending ends =>
    have hlength : s.pending.length = before.length + (after.length + 1) := by
      rw [pending, List.length_append, List.length_cons]
    cases hfutures : s.futures with
    | nil =>
      constructor
      · simp
        omega
      · intro _ hne
        exact absurd rfl hne
    | cons next rest =>
      have hfull := h.full waits (by rw [hfutures]; exact List.cons_ne_nil _ _)
      constructor
      · simp
        omega
      · intro _ _
        simp
        omega
  | @failed before after item error waits pending ends =>
    have hlength : s.pending.length = before.length + (after.length + 1) := by
      rw [pending, List.length_append, List.length_cons]
    constructor
    · rw [List.length_append]
      omega
    · intro hreturned
      cases hreturned
  | drained waits pending => exact ⟨hbounded, fun hreturned => nomatch hreturned⟩

theorem BufferedOrdered.holds (h : (tryBufferedOrdered f concurrency items).Reachable s) :
    s.Holds (max concurrency 1) := by
  refine System.Reachable.invariant (fun s hs => ?_) (fun s a t _ hs hstep => hs.step hstep) h
  rw [show s = _ from hs]
  constructor
  · exact List.length_take_le _ _
  · intro _ hfutures
    have hlt : max concurrency 1 < items.zipIdx.length := by
      by_contra hle
      exact hfutures (List.drop_of_length_le (by omega))
    show (items.zipIdx.take (max concurrency 1)).length = _
    rw [List.length_take]
    omega

/-! ### The loop as a run with a limit -/

/-- A future under the number that the run with a limit gives it, which is its index. -/
def byIndex (future : ι × ℕ) : (ι × ℕ) × ℕ := (future, future.2)

@[simp]
theorem byIndex_snd (future : ι × ℕ) : (byIndex future).2 = future.2 := rfl

theorem zipIdx_zipIdx (items : List ι) : items.zipIdx.zipIdx = items.zipIdx.map byIndex := by
  apply List.ext_getElem
  · simp
  · intro i h h'
    simp [byIndex]

/-- The state of the run with a limit. -/
def BufferedOrdered.asRun (s : BufferedOrdered ι ε β) : TryBuffered (ι × ℕ) ε β :=
  ⟨⟨s.futures.map byIndex, s.pending.map byIndex⟩, s.completed, s.returned⟩

/-- As many futures as may be in flight are started one after another. -/
theorem reachable_start {limit : ℕ} {waiting running : List ((ι × ℕ) × ℕ)}
    (h : (tryBuffered f limit items.zipIdx).Reachable ⟨⟨waiting, running⟩, [], none⟩) (n : ℕ)
    (hroom : running.length + n ≤ limit) :
    (tryBuffered f limit items.zipIdx).Reachable
      ⟨⟨waiting.drop n, running ++ waiting.take n⟩, [], none⟩ := by
  induction n generalizing waiting running with
  | zero => simpa using h
  | succ n ih =>
    cases waiting with
    | nil => simpa using h
    | cons item waiting =>
      have hstep : (tryBuffered f limit items.zipIdx).step ⟨⟨item :: waiting, running⟩, [], none⟩ none
          ⟨⟨waiting, running ++ [item]⟩, [], none⟩ := .start rfl (.start (by omega))
      have hrest := ih (h.step hstep) (by simp; omega)
      rw [List.append_assoc] at hrest
      exact hrest

/-- **Each state of the loop is one of the run with a limit.** -/
theorem BufferedOrdered.reachable (h : (tryBufferedOrdered f concurrency items).Reachable s) :
    (tryBuffered f (max concurrency 1) items.zipIdx).Reachable s.asRun := by
  induction h with
  | @init s hs =>
    have hs : s = .start items concurrency := hs
    have hinit : (tryBuffered f (max concurrency 1) items.zipIdx).Reachable
        ⟨⟨items.zipIdx.zipIdx, []⟩, [], none⟩ := .init rfl
    have hstart := reachable_start hinit (max concurrency 1) (by simp)
    rw [zipIdx_zipIdx, ← List.map_drop, ← List.map_take, List.nil_append] at hstart
    rw [hs]
    exact hstart
  | @step s label t hs hstep ih =>
    have hbounded := (BufferedOrdered.holds hs).bounded
    cases hstep with
    | @completed before after item value waits pending ends =>
      have hpoll : Buffer.Poll (max concurrency 1)
          ⟨s.futures.map byIndex, s.pending.map byIndex⟩ (some (byIndex item))
          ⟨s.futures.map byIndex, (before ++ after).map byIndex⟩ := by
        rw [pending, List.map_append, List.map_cons, List.map_append]
        exact .complete
      have hcompleted := ih.step (.completed waits hpoll ends)
      have hlength : s.pending.length = before.length + (after.length + 1) := by
        rw [pending, List.length_append, List.length_cons]
      cases hfutures : s.futures with
      | nil =>
        rw [hfutures] at hcompleted
        simpa [asRun, hfutures] using hcompleted
      | cons next rest =>
        rw [hfutures] at hcompleted
        have hroom : ((before ++ after).map (byIndex : ι × ℕ → _)).length < max concurrency 1 := by
          simp only [List.length_map, List.length_append]
          omega
        have hstart := hcompleted.step (.start waits (.start hroom))
        simpa [asRun, hfutures] using hstart
    | @failed before after item error waits pending ends =>
      have hpoll : Buffer.Poll (max concurrency 1)
          ⟨s.futures.map byIndex, s.pending.map byIndex⟩ (some (byIndex item))
          ⟨s.futures.map byIndex, (before ++ after).map byIndex⟩ := by
        rw [pending, List.map_append, List.map_cons, List.map_append]
        exact .complete
      exact ih.step (.failed waits hpoll ends)
    | drained waits pending =>
      have hfutures : s.futures = [] := by
        by_contra hne
        have hfull := (BufferedOrdered.holds hs).full waits hne
        rw [pending, List.length_nil] at hfull
        omega
      have hdrained : s.asRun.stream.Drained := by
        rw [asRun, pending, hfutures]
        exact ⟨rfl, rfl⟩
      exact ih.step (.drained waits hdrained)

/-- **The loop returns what running the futures one after another gives**, or an error when that
does. -/
theorem tryBufferedOrdered_returned (h : (tryBufferedOrdered f concurrency items).Reachable s)
    {outcome : Except ε (List β)} (hreturned : s.returned = some outcome) (results : List β) :
    outcome = .ok results ↔ items.zipIdx.mapM f = .ok results :=
  tryBuffered_returned (BufferedOrdered.reachable h) hreturned results

/-- What the loop has left to do. -/
def BufferedOrdered.work (s : BufferedOrdered ι ε β) : ℕ :=
  s.futures.length + s.pending.length + if s.returned.isNone then 1 else 0

/-- Every step leaves less to do. -/
theorem BufferedOrderedStep.work_lt (h : BufferedOrderedStep f s label t) : t.work < s.work := by
  cases h with
  | @completed before after item value waits pending ends =>
    unfold BufferedOrdered.work
    cases hfutures : s.futures with
    | nil => simp [pending]
    | cons next rest =>
      simp [pending]
  | @failed before after item error waits pending ends =>
    simp only [BufferedOrdered.work, pending, waits, List.length_append, List.length_cons,
      Option.isNone_none, Option.isNone_some, Bool.false_eq_true, if_true, if_false]
    omega
  | drained waits pending => simp [BufferedOrdered.work, waits]

/-- The loop goes on until it returns; then no future is started any more. -/
theorem step_iff_waits : (∃ label t, BufferedOrderedStep f s label t) ↔ s.returned = none := by
  constructor
  · rintro ⟨label, t, hstep⟩
    cases hstep with
    | completed waits | failed waits | drained waits => exact waits
  · intro waits
    cases hpending : s.pending with
    | nil => exact ⟨none, _, .drained waits hpending⟩
    | cons item rest =>
      have hsplit : s.pending = [] ++ item :: rest := hpending
      cases hitem : f item with
      | ok value => exact ⟨some item, _, .completed waits hsplit hitem⟩
      | error error => exact ⟨some item, _, .failed waits hsplit hitem⟩

end GraphLoom.Query
