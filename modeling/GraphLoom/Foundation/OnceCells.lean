import GraphLoom.Foundation.Transition

/-!
# Cells that are initialized once

Concurrent requests share values by keys.  The first request with a key makes the value while the
others wait; a value that is there is kept, and an attempt that fails leaves the cell empty, so that
another request may try.  A request without a key makes its value for itself.

When any two requests with one key that succeed make the same value, and one of them succeeds if the
other does, every request gets what it would make for itself (`returned_eq_make`).
-/

namespace GraphLoom.Foundation.OnceCells

/-- The cell of a key. -/
inductive Cell (ι ν : Type*) where
  | empty
  | initializing (owner : ι)
  | ready (value : ν)
deriving DecidableEq

/-- The phase of a request. -/
inductive Phase (ν ε : Type*) where
  | waiting
  | initializing
  | returned (result : Except ε ν)
  | dropped

/-- What a request needs. -/
structure Job (κ ν ε : Type*) where
  key : Option κ
  make : Except ε ν

structure State (κ ι ν ε : Type*) where
  cells : κ → Cell ι ν
  phases : ι → Phase ν ε

variable {κ ι ν ε : Type*} [DecidableEq κ] [DecidableEq ι]

namespace State

variable (s : State κ ι ν ε)

def setCell (key : κ) (cell : Cell ι ν) : State κ ι ν ε :=
  { s with cells := Function.update s.cells key cell }

def setPhase (request : ι) (phase : Phase ν ε) : State κ ι ν ε :=
  { s with phases := Function.update s.phases request phase }

omit [DecidableEq κ] in
@[simp]
theorem setPhase_phases_self (request : ι) (phase : Phase ν ε) :
    (s.setPhase request phase).phases request = phase := Function.update_self _ _ _

omit [DecidableEq κ] in
@[simp]
theorem setPhase_cells (request : ι) (phase : Phase ν ε) :
    (s.setPhase request phase).cells = s.cells := rfl

omit [DecidableEq ι] in
@[simp]
theorem setCell_cells_self (key : κ) (cell : Cell ι ν) : (s.setCell key cell).cells key = cell :=
  Function.update_self _ _ _

end State

/-- The steps of a request. -/
inductive Step (jobs : ι → Job κ ν ε) (s : State κ ι ν ε) : ι → State κ ι ν ε → Prop
  | alone {i : ι} (waits : s.phases i = .waiting) (unshared : (jobs i).key = none) :
      Step jobs s i (s.setPhase i (.returned (jobs i).make))
  | shares {i : ι} {key : κ} {value : ν} (waits : s.phases i = .waiting)
      (shared : (jobs i).key = some key) (ready : s.cells key = .ready value) :
      Step jobs s i (s.setPhase i (.returned (.ok value)))
  | begins {i : ι} {key : κ} (waits : s.phases i = .waiting) (shared : (jobs i).key = some key)
      (empty : s.cells key = .empty) :
      Step jobs s i ((s.setCell key (.initializing i)).setPhase i .initializing)
  | succeeds {i : ι} {key : κ} {value : ν} (phase : s.phases i = .initializing)
      (shared : (jobs i).key = some key) (cell : s.cells key = .initializing i)
      (made : (jobs i).make = .ok value) :
      Step jobs s i ((s.setCell key (.ready value)).setPhase i (.returned (.ok value)))
  | fails {i : ι} {key : κ} {error : ε} (phase : s.phases i = .initializing)
      (shared : (jobs i).key = some key) (cell : s.cells key = .initializing i)
      (failed : (jobs i).make = .error error) :
      Step jobs s i ((s.setCell key .empty).setPhase i (.returned (.error error)))
  | drops {i : ι} (waits : s.phases i = .waiting) : Step jobs s i (s.setPhase i .dropped)
  | dropsCell {i : ι} {key : κ} (phase : s.phases i = .initializing)
      (shared : (jobs i).key = some key) (cell : s.cells key = .initializing i) :
      Step jobs s i ((s.setCell key .empty).setPhase i .dropped)

def system (jobs : ι → Job κ ν ε) : System (State κ ι ν ε) ι where
  init s := (∀ key, s.cells key = .empty) ∧ ∀ i, s.phases i = .waiting
  step := Step jobs

variable {jobs : ι → Job κ ν ε} {s t : State κ ι ν ε} {i : ι} {key : κ} {value : ν}

/-- A step of a request leaves the phases of the others as they are. -/
theorem Step.phases_of_ne (h : Step jobs s i t) {j : ι} (hne : j ≠ i) : t.phases j = s.phases j := by
  cases h <;> exact Function.update_of_ne hne _ _

/-- A cell becomes ready with what the request makes, or was ready before. -/
theorem Step.ready (h : Step jobs s i t) (hready : t.cells key = .ready value) :
    s.cells key = .ready value ∨ ((jobs i).key = some key ∧ (jobs i).make = .ok value) := by
  have hupdate : ∀ {key' : κ} {cell : Cell ι ν},
      Function.update s.cells key' cell key = .ready value → (key = key' ∧ cell = .ready value) ∨
        s.cells key = .ready value := by
    intro key' cell h
    by_cases hkey : key = key'
    · subst hkey
      rw [Function.update_self] at h
      exact .inl ⟨rfl, h⟩
    · rw [Function.update_of_ne hkey] at h
      exact .inr h
  cases h with
  | alone _ _ => exact .inl hready
  | shares _ _ _ => exact .inl hready
  | drops _ => exact .inl hready
  | begins _ _ _ =>
    rcases hupdate hready with ⟨-, h⟩ | h
    · exact nomatch h
    · exact .inl h
  | succeeds _ shared _ made =>
    rcases hupdate hready with ⟨rfl, h⟩ | h
    · obtain rfl := Cell.ready.inj h
      exact .inr ⟨shared, made⟩
    · exact .inl h
  | fails _ _ _ _ =>
    rcases hupdate hready with ⟨-, h⟩ | h
    · exact nomatch h
    · exact .inl h
  | dropsCell _ _ _ =>
    rcases hupdate hready with ⟨-, h⟩ | h
    · exact nomatch h
    · exact .inl h

/-- What a step returns is made by the request or is what the cell of its key holds. -/
theorem Step.returned (h : Step jobs s i t) {result : Except ε ν}
    (hreturned : t.phases i = .returned result) :
    result = (jobs i).make ∨ ∃ key value, (jobs i).key = some key ∧ s.cells key = .ready value ∧
      result = .ok value := by
  have hself : ∀ {s' : State κ ι ν ε} {phase : Phase ν ε},
      (s'.setPhase i phase).phases i = .returned result → phase = .returned result := by
    intro s' phase h
    rwa [State.setPhase_phases_self] at h
  cases h with
  | alone _ _ => exact .inl (Phase.returned.inj (hself hreturned)).symm
  | shares _ shared ready =>
    exact .inr ⟨_, _, shared, ready, (Phase.returned.inj (hself hreturned)).symm⟩
  | begins _ _ _ => exact nomatch hself hreturned
  | succeeds _ _ _ made =>
    exact .inl ((Phase.returned.inj (hself hreturned)).symm.trans made.symm)
  | fails _ _ _ failed =>
    exact .inl ((Phase.returned.inj (hself hreturned)).symm.trans failed.symm)
  | drops _ => exact nomatch hself hreturned
  | dropsCell _ _ _ => exact nomatch hself hreturned

/-- What a cell holds was made by a request with its key. -/
theorem ready_made (h : (system jobs).Reachable s) :
    ∀ {key value}, s.cells key = .ready value →
      ∃ i, (jobs i).key = some key ∧ (jobs i).make = .ok value := by
  induction h with
  | init h =>
    intro key value hready
    rw [h.1 key] at hready
    exact nomatch hready
  | step _ hstep ih =>
    intro key value hready
    rcases hstep.ready hready with hready | hmade
    · exact ih hready
    · exact ⟨_, hmade⟩

/-- Every request gets what it would make for itself. -/
theorem returned_eq_make
    (hagree : ∀ i j key value, (jobs i).key = some key → (jobs j).key = some key →
      (jobs i).make = .ok value → (jobs j).make = .ok value)
    (h : (system jobs).Reachable s) {result : Except ε ν} (hresult : s.phases i = .returned result) :
    result = (jobs i).make := by
  induction h generalizing i result with
  | init h =>
    rw [h.2 i] at hresult
    exact nomatch hresult
  | @step s j t hreachable hstep ih =>
    by_cases hij : i = j
    · subst hij
      rcases hstep.returned hresult with hmake | ⟨key, value, hkey, hready, hvalue⟩
      · exact hmake
      · obtain ⟨k, hk, hmade⟩ := ready_made hreachable hready
        rw [hvalue, hagree k i key value hk hkey hmade]
    · rw [hstep.phases_of_ne hij] at hresult
      exact ih hresult

end GraphLoom.Foundation.OnceCells
