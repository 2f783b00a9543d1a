import GraphLoom.Foundation.BufferUnordered
import GraphLoom.Foundation.Fallible
import Mathlib.Data.List.Enum

/-!
# Fallible futures with a limit

Futures run with a limited number of them in flight.  Their results are kept with the position of
their item and put in order at the end; the first error ends the run.  In whatever order the futures
complete, the run returns the results of running them one after another, and an error when that is
an error (`tryBuffered_returned`).
-/

namespace GraphLoom.Foundation

universe u

variable {ι ε : Type*} {β : Type u}

/-! ### Results out of order -/

/-- The entry holds the result of the item, under the item's position. -/
def IsResultOf (f : ι → Except ε β) (item : ι × ℕ) (entry : ℕ × β) : Prop :=
  entry.1 = item.2 ∧ f item.1 = .ok entry.2

variable {f : ι → Except ε β} {items : List ι}

theorem zipIdx_pairwise_lt (xs : List ι) (n : ℕ) :
    (xs.zipIdx n).Pairwise fun a b => a.2 < b.2 := by
  have h : ((xs.zipIdx n).map Prod.snd).Pairwise (· < ·) := by
    rw [List.zipIdx_map_snd]
    exact List.pairwise_lt_range'
  exact List.pairwise_map.mp h

/-- Results of items with increasing keys have increasing keys. -/
theorem pairwise_of_results {R : ι → β → Prop} {key : ι → ℕ} {keyOf : β → ℕ}
    (hkey : ∀ item result, R item result → keyOf result = key item) {results : List β}
    (h : List.Forall₂ R items results) (hitems : items.Pairwise fun a b => key a < key b) :
    results.Pairwise fun a b => keyOf a < keyOf b := by
  induction h with
  | nil => exact .nil
  | @cons item result items results hresult hrest ih =>
    obtain ⟨hfirst, hitems⟩ := List.pairwise_cons.mp hitems
    refine List.pairwise_cons.mpr ⟨fun result' hresult' => ?_, ih hitems⟩
    obtain ⟨item', hitem', hR⟩ := forall₂_exists_left hrest hresult'
    rw [hkey item result hresult, hkey item' result' hR]
    exact hfirst item' hitem'

/-- Results in any order, sorted by their keys, correspond to the items in order. -/
theorem forall₂_sort_of_results {R : ι → β → Prop} {key : ι → ℕ} {keyOf : β → ℕ}
    (hkey : ∀ item result, R item result → keyOf result = key item)
    (hitems : items.Pairwise fun a b => key a < key b) {done : List ι} {results : List β}
    (hdone : items.Perm done) (hresults : List.Forall₂ R done results) :
    List.Forall₂ R items (results.insertionSort fun a b => keyOf a ≤ keyOf b) := by
  -- the results in the order of the items
  obtain ⟨sorted, hsorted, hperm⟩ := List.perm_comp_forall₂ hdone hresults
  have hincreasing := pairwise_of_results hkey hsorted hitems
  rw [insertionSort_eq_of_perm keyOf hperm.symm hincreasing]
  exact hsorted

/-- **Results of all items, in any order, sort to the results one after another.** -/
theorem mapM_of_results {done : List (ι × ℕ)} {entries : List (ℕ × β)}
    (hdone : items.zipIdx.Perm done) (hentries : List.Forall₂ (IsResultOf f) done entries) :
    items.mapM f = .ok ((entries.insertionSort fun a b => a.1 ≤ b.1).map Prod.snd) := by
  have hsorted := forall₂_sort_of_results (fun item entry h => h.1) (zipIdx_pairwise_lt items 0)
    hdone hentries
  rw [mapM_eq_ok_iff]
  have hresults : List.Forall₂ (fun item result => f item.1 = .ok result) items.zipIdx
      ((entries.insertionSort fun a b => a.1 ≤ b.1).map Prod.snd) := by
    rw [List.forall₂_map_right_iff]
    exact hsorted.imp fun item entry h => h.2
  have hitems : items = items.zipIdx.map Prod.fst := (List.zipIdx_map_fst 0 items).symm
  rw [hitems, List.forall₂_map_left_iff]
  exact hresults

/-- When an item fails, running the items one after another fails. -/
theorem mapM_ne_ok {item : ι} {error : ε} (hmem : item ∈ items) (herror : f item = .error error)
    (results : List β) : items.mapM f ≠ .ok results := by
  intro h
  obtain ⟨result, -, hresult⟩ := forall₂_exists_right (mapM_eq_ok_iff.mp h) hmem
  rw [herror] at hresult
  cases hresult

/-! ### Runs -/

/-- The state of a run: the futures, the results that are there, and what was returned. -/
structure TryBuffered (ι ε : Type*) (β : Type u) where
  stream : Buffer (ι × ℕ)
  completed : List (ℕ × β)
  returned : Option (Except ε (List β))

inductive TryBufferedStep (f : ι → Except ε β) (limit : ℕ) (s : TryBuffered ι ε β) :
    Option (ι × ℕ) → TryBuffered ι ε β → Prop
  | start {stream : Buffer (ι × ℕ)} (waits : s.returned = none)
      (poll : Buffer.Poll limit s.stream none stream) :
      TryBufferedStep f limit s none { s with stream }
  | completed {stream : Buffer (ι × ℕ)} {item : ι × ℕ} {result : β} (waits : s.returned = none)
      (poll : Buffer.Poll limit s.stream (some item) stream) (ends : f item.1 = .ok result) :
      TryBufferedStep f limit s (some item)
        { s with stream, completed := s.completed ++ [(item.2, result)] }
  | failed {stream : Buffer (ι × ℕ)} {item : ι × ℕ} {error : ε} (waits : s.returned = none)
      (poll : Buffer.Poll limit s.stream (some item) stream) (ends : f item.1 = .error error) :
      TryBufferedStep f limit s (some item) { s with stream, returned := some (.error error) }
  | drained (waits : s.returned = none) (empty : s.stream.Drained) :
      TryBufferedStep f limit s none
        { s with
          returned := some (.ok ((s.completed.insertionSort fun a b => a.1 ≤ b.1).map Prod.snd)) }

/-- A run of the futures of `items`. -/
def tryBuffered (f : ι → Except ε β) (limit : ℕ) (items : List ι) :
    System (TryBuffered ι ε β) (Option (ι × ℕ)) where
  init s := s = ⟨.full items.zipIdx, [], none⟩
  step := TryBufferedStep f limit

variable {limit : ℕ} {s t : TryBuffered ι ε β} {label : Option (ι × ℕ)}

/-- What holds in every state of a run. -/
structure TryBuffered.Holds (f : ι → Except ε β) (items : List ι) (s : TryBuffered ι ε β) :
    Prop where
  /-- The entries are the results of the items that are not pending. -/
  completed : s.returned = none → ∃ done : List (ι × ℕ),
    items.zipIdx.Perm (done ++ s.stream.pending) ∧ List.Forall₂ (IsResultOf f) done s.completed
  returned : ∀ outcome, s.returned = some outcome → ∀ results,
    outcome = .ok results ↔ items.mapM f = .ok results

theorem TryBuffered.Holds.step (h : s.Holds f items) (hstep : TryBufferedStep f limit s label t) :
    t.Holds f items := by
  cases hstep with
  | start waits poll =>
    obtain ⟨done, hperm, hdone⟩ := h.completed waits
    constructor
    · intro _
      exact ⟨done, hperm.trans (poll.pending_perm.append_left done), hdone⟩
    · exact h.returned
  | @completed stream item result waits poll ends =>
    obtain ⟨done, hperm, hdone⟩ := h.completed waits
    constructor
    · intro _
      refine ⟨done ++ [item], ?_, List.rel_append hdone (.cons ⟨rfl, ends⟩ .nil)⟩
      rw [List.append_assoc]
      exact hperm.trans (poll.pending_perm.append_left done)
    · intro _ hreturned
      rw [waits] at hreturned
      cases hreturned
  | @failed stream item error waits poll ends =>
    obtain ⟨done, hperm, hdone⟩ := h.completed waits
    constructor
    · intro hreturned
      cases hreturned
    · intro outcome hreturned results
      obtain rfl := Option.some.inj hreturned
      have hmem : item ∈ items.zipIdx := by
        apply (hperm.trans (poll.pending_perm.append_left done)).mem_iff.mpr
        simp
      have hmem' : item.1 ∈ items := by
        rw [← List.zipIdx_map_fst 0 items]
        exact List.mem_map_of_mem hmem
      constructor
      · intro hok
        cases hok
      · intro hok
        exact absurd hok (mapM_ne_ok hmem' ends results)
  | drained waits empty =>
    obtain ⟨done, hperm, hdone⟩ := h.completed waits
    have hpending : s.stream.pending = [] := by
      rw [Buffer.pending, empty.1, empty.2, List.append_nil]
    rw [hpending, List.append_nil] at hperm
    constructor
    · intro hreturned
      cases hreturned
    · intro outcome hreturned results
      obtain rfl := Option.some.inj hreturned
      rw [mapM_of_results hperm hdone]

/-- **A run returns what running the items one after another gives**, or an error when that does. -/
theorem tryBuffered_returned (h : (tryBuffered f limit items).Reachable s)
    {outcome : Except ε (List β)} (hreturned : s.returned = some outcome) (results : List β) :
    outcome = .ok results ↔ items.mapM f = .ok results := by
  have hs : s.Holds f items := by
    refine System.Reachable.invariant (fun s hs => ?_) (fun s a t _ hs hstep => hs.step hstep) h
    rw [show s = _ from hs]
    constructor
    · intro _
      refine ⟨[], ?_, .nil⟩
      show items.zipIdx.Perm ([] ++ (items.zipIdx ++ []))
      rw [List.nil_append, List.append_nil]
    · intro _ hreturned
      cases hreturned
  exact hs.returned outcome hreturned results

end GraphLoom.Foundation
