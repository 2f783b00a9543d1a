import GraphLoom.Foundation.Transition
import Mathlib.Data.List.Pairwise
import Mathlib.Data.List.Perm.Basic
import Mathlib.Data.List.Sort

/-!
# Unordered buffered streams

A stream starts the futures of its items in order, keeps a limited number of them in flight, and
hands them on in whatever order they complete.  A step takes only the item that completed away
(`Buffer.Poll.pending_perm`), a stream that is not drained can go on, and sorting what completed by
its position puts it back in order (`insertionSort_eq_of_perm`).
-/

namespace GraphLoom.Foundation

variable {ι : Type*}

/-- The items of a stream whose futures have not started, in order, and those in flight. -/
structure Buffer (ι : Type*) where
  waiting : List ι
  running : List ι

namespace Buffer

/-- No item has started. -/
def full (items : List ι) : Buffer ι := ⟨items, []⟩

/-- Every item has completed. -/
def Drained (buffer : Buffer ι) : Prop := buffer.waiting = [] ∧ buffer.running = []

/-- One step of the stream: the next future starts when fewer than `limit` are in flight, or one of
those in flight completes with its item. -/
inductive Poll (limit : ℕ) : Buffer ι → Option ι → Buffer ι → Prop
  | start {item : ι} {waiting running : List ι} (room : running.length < limit) :
      Poll limit ⟨item :: waiting, running⟩ none ⟨waiting, running ++ [item]⟩
  | complete {waiting before after : List ι} {item : ι} :
      Poll limit ⟨waiting, before ++ item :: after⟩ (some item) ⟨waiting, before ++ after⟩

/-- The items that have not completed. -/
def pending (buffer : Buffer ι) : List ι := buffer.waiting ++ buffer.running

variable {limit : ℕ} {b b' : Buffer ι}

/-- A step only takes the completed item away. -/
theorem Poll.pending_perm {label : Option ι} (h : Poll limit b label b') :
    b.pending.Perm (label.toList ++ b'.pending) := by
  unfold pending
  cases h with
  | @start item waiting running =>
    have hperm : (item :: (waiting ++ running)).Perm ((waiting ++ running) ++ [item]) :=
      (List.perm_append_singleton _ _).symm
    rw [List.append_assoc] at hperm
    exact hperm
  | @complete waiting before after item =>
    have hperm : (waiting ++ (before ++ item :: after)).Perm
        (waiting ++ (item :: (before ++ after))) := List.perm_middle.append_left _
    exact hperm.trans List.perm_middle

/-- A completion leaves the items that wait. -/
theorem Poll.waiting_eq {item : ι} (h : Poll limit b (some item) b') : b'.waiting = b.waiting := by
  cases h
  rfl

/-- A stream that is not drained can go on when at least one future may be in flight. -/
theorem exists_poll (hlimit : 0 < limit) (h : ¬ b.Drained) : ∃ label b', Poll limit b label b' := by
  obtain ⟨waiting, running⟩ := b
  cases running with
  | cons item running =>
    have h : Poll limit ⟨waiting, [] ++ item :: running⟩ (some item) ⟨waiting, [] ++ running⟩ :=
      .complete
    exact ⟨some item, ⟨waiting, running⟩, h⟩
  | nil =>
    cases waiting with
    | cons item waiting => exact ⟨none, ⟨waiting, [item]⟩, .start hlimit⟩
    | nil => exact absurd ⟨rfl, rfl⟩ h

/-- What a stream has left to do: a start and a completion for each item. -/
def work (buffer : Buffer ι) : ℕ := 2 * buffer.waiting.length + buffer.running.length

theorem Poll.work_lt {label : Option ι} (h : Poll limit b label b') : b'.work < b.work := by
  unfold work
  cases h with
  | start => simp only [List.length_append, List.length_cons, List.length_nil]; omega
  | complete => simp only [List.length_append, List.length_cons]; omega

end Buffer

/-! ### Putting results back in order -/

/-- Sorting by a key that increases strictly along a list gives the list back from any order of its
elements. -/
theorem insertionSort_eq_of_perm {α : Type*} (key : α → ℕ) {xs ys : List α} (hperm : xs.Perm ys)
    (hsorted : ys.Pairwise fun a b => key a < key b) :
    xs.insertionSort (fun a b => key a ≤ key b) = ys := by
  have : Std.Total fun a b : α => key a ≤ key b := ⟨fun a b => le_total (key a) (key b)⟩
  have : IsTrans α fun a b => key a ≤ key b := ⟨fun a b c => le_trans⟩
  have hmem : ∀ a b, a ∈ xs.insertionSort (fun a b => key a ≤ key b) → b ∈ ys →
      key a ≤ key b → key b ≤ key a → a = b := by
    intro a b ha hb hab hba
    have ha : a ∈ ys := hperm.mem_iff.mp ((List.mem_insertionSort _).mp ha)
    by_contra hne
    -- two different elements have different keys
    have hkeys : ys.Pairwise fun a b => key a ≠ key b := hsorted.imp fun h => h.ne
    have : Std.Symm fun a b : α => key a ≠ key b := ⟨fun _ _ h => h.symm⟩
    exact hkeys.forall ha hb hne (le_antisymm hab hba)
  refine List.Perm.eq_of_pairwise hmem (List.pairwise_insertionSort _ _) (hsorted.imp le_of_lt) ?_
  exact (List.perm_insertionSort _ _).trans hperm

end GraphLoom.Foundation
