import Mathlib.Data.List.Basic

/-!
# Deterministic machines

A component that answers one call at a time is a machine: a call and a state give a reply and the
next state.  An invariant of one call is an invariant of every finite sequence of calls
(`invariant_run`), and two machines whose calls agree under a relation of their states agree on
every sequence of calls (`bisimulation_run`).  When their calls agree exactly under a condition,
they agree on the sequences along which the condition holds (`replies_eq_iff_along`).
-/

namespace GraphLoom.Foundation

/-- A machine with states `σ`, inputs `ι` and outputs `ο`. -/
structure Machine (σ ι ο : Type*) where
  init : σ
  step : σ → ι → ο × σ

namespace Machine

variable {σ τ ι ο : Type*} (m : Machine σ ι ο) (n : Machine τ ι ο)

/-- The state after a finite sequence of inputs, started from `s`. -/
def runFrom (s : σ) : List ι → σ
  | [] => s
  | i :: is => runFrom (m.step s i).2 is

/-- The outputs of a finite sequence of inputs, started from `s`. -/
def repliesFrom (s : σ) : List ι → List ο
  | [] => []
  | i :: is => (m.step s i).1 :: repliesFrom (m.step s i).2 is

/-- The state after a finite sequence of inputs. -/
def run (is : List ι) : σ := m.runFrom m.init is

/-- The outputs of a finite sequence of inputs. -/
def replies (is : List ι) : List ο := m.repliesFrom m.init is

theorem runFrom_append (s : σ) (is js : List ι) :
    m.runFrom s (is ++ js) = m.runFrom (m.runFrom s is) js := by
  induction is generalizing s with
  | nil => rfl
  | cons i is ih => exact ih (m.step s i).2

theorem run_append (is js : List ι) : m.run (is ++ js) = m.runFrom (m.run is) js :=
  m.runFrom_append m.init is js

/-- What one allowed input preserves, a sequence of allowed inputs preserves. -/
theorem invariant_runFrom {P : σ → Prop} (ok : ι → Prop)
    (hstep : ∀ s i, ok i → P s → P (m.step s i).2) {s : σ} (hs : P s) (is : List ι)
    (hok : ∀ i ∈ is, ok i) : P (m.runFrom s is) := by
  induction is generalizing s with
  | nil => exact hs
  | cons i is ih =>
    have hi : P (m.step s i).2 := hstep s i (hok i (List.mem_cons_self ..)) hs
    exact ih hi fun j hj => hok j (List.mem_cons_of_mem _ hj)

/-- An invariant that holds at the start and is preserved by every input holds after every
finite sequence of inputs. -/
theorem invariant_run {P : σ → Prop} (hinit : P m.init)
    (hstep : ∀ s i, P s → P (m.step s i).2) (is : List ι) : P (m.run is) :=
  m.invariant_runFrom (fun _ => True) (fun s i _ => hstep s i) hinit is (fun _ _ => trivial)

/-- **The bisimulation rule.**  If related states answer every allowed input alike and move to
related states, then the two machines answer every sequence of allowed inputs alike. -/
theorem bisimulation_run {R : σ → τ → Prop} (ok : ι → Prop) (hinit : R m.init n.init)
    (hstep : ∀ s t i, ok i → R s t →
      (m.step s i).1 = (n.step t i).1 ∧ R (m.step s i).2 (n.step t i).2)
    (is : List ι) (hok : ∀ i ∈ is, ok i) :
    m.replies is = n.replies is ∧ R (m.run is) (n.run is) := by
  suffices h : ∀ (is : List ι) (s : σ) (t : τ), (∀ i ∈ is, ok i) → R s t →
      m.repliesFrom s is = n.repliesFrom t is ∧ R (m.runFrom s is) (n.runFrom t is) from
    h is m.init n.init hok hinit
  intro is
  induction is with
  | nil => exact fun s t _ hst => ⟨rfl, hst⟩
  | cons i is ih =>
    intro s t hok hst
    obtain ⟨hreply, hnext⟩ := hstep s t i (hok i (List.mem_cons_self ..)) hst
    obtain ⟨hreplies, hrun⟩ := ih _ _ (fun j hj => hok j (List.mem_cons_of_mem _ hj)) hnext
    refine ⟨?_, hrun⟩
    rw [repliesFrom, repliesFrom, hreply, hreplies]

/-- Each input of a sequence meets a condition in the state that it is given to. -/
def Along (C : σ → ι → Prop) (s : σ) : List ι → Prop
  | [] => True
  | i :: is => C s i ∧ Along C (m.step s i).2 is

/-- Two machines that stay related answer alike exactly along the condition under which one input is
answered alike. -/
theorem replies_eq_iff_along {R : σ → τ → Prop} {C D : σ → ι → Prop} (ok : ι → Prop)
    (hstep : ∀ s t i, ok i → R s t → C s i →
      ((m.step s i).1 = (n.step t i).1 ↔ D s i) ∧ R (m.step s i).2 (n.step t i).2)
    {s : σ} {t : τ} (h : R s t) (is : List ι) (hok : ∀ i ∈ is, ok i) (hC : m.Along C s is) :
    m.repliesFrom s is = n.repliesFrom t is ↔ m.Along D s is := by
  induction is generalizing s t with
  | nil => exact iff_of_true rfl trivial
  | cons i is ih =>
    obtain ⟨hreply, hnext⟩ := hstep s t i (hok i (List.mem_cons_self ..)) h hC.1
    have hrest := ih hnext (fun j hj => hok j (List.mem_cons_of_mem _ hj)) hC.2
    rw [repliesFrom, repliesFrom, List.cons.injEq, hreply, hrest]
    rfl

end Machine

end GraphLoom.Foundation
