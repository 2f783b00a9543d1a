import Mathlib.Data.List.Basic

/-!
# Labelled transition systems

A system has initial states and labelled steps; its steps are the interleavings of its parties.
What a step preserves from every reachable state holds in every reachable state
(`Reachable.invariant`) and along every run from one (`Run.invariant`), and a refinement carries
reachable states to reachable states of the system it refines (`Refines.reachable`).
-/

namespace GraphLoom.Foundation

/-- A system with states `σ` and labels `α`. -/
structure System (σ α : Type*) where
  init : σ → Prop
  step : σ → α → σ → Prop

namespace System

variable {σ τ α β : Type*} {M : System σ α} {N : System τ β}

/-- A finite run from `s`, with the labels of its steps. -/
inductive Run (M : System σ α) (s : σ) : List α → σ → Prop
  | nil : Run M s [] s
  | snoc {labels : List α} {t : σ} {a : α} {u : σ} (run : Run M s labels t)
      (step : M.step t a u) : Run M s (labels ++ [a]) u

/-- A state that some run from an initial state ends in. -/
inductive Reachable (M : System σ α) : σ → Prop
  | init {s : σ} (h : M.init s) : Reachable M s
  | step {s : σ} {a : α} {t : σ} (reachable : Reachable M s) (h : M.step s a t) : Reachable M t

variable {labels : List α} {s t : σ}

theorem Reachable.run (hs : M.Reachable s) (h : M.Run s labels t) : M.Reachable t := by
  induction h with
  | nil => exact hs
  | snoc _ hstep ih => exact .step ih hstep

/-- An invariant of the steps from reachable states holds in every reachable state. -/
theorem Reachable.invariant {P : σ → Prop} (hinit : ∀ s, M.init s → P s)
    (hstep : ∀ s a t, M.Reachable s → P s → M.step s a t → P t) {s : σ} (h : M.Reachable s) :
    P s := by
  induction h with
  | init h => exact hinit _ h
  | step hs hst ih => exact hstep _ _ _ hs ih hst

/-- What the steps from reachable states preserve is preserved along runs from them. -/
theorem Run.invariant {P : σ → Prop} (hstep : ∀ s a t, M.Reachable s → P s → M.step s a t → P t)
    (hs : M.Reachable s) (hP : P s) (h : M.Run s labels t) : P t := by
  induction h with
  | nil => exact hP
  | snoc hrun hst ih => exact hstep _ _ _ (hs.run hrun) ih hst

/-- A run is no longer than what is left to do when every step does some of it. -/
theorem Run.length_le {work : σ → ℕ} (hwork : ∀ s a t, M.step s a t → work t < work s)
    (h : M.Run s labels t) : labels.length + work t ≤ work s := by
  induction h with
  | nil => simp
  | snoc _ hst ih =>
    have hlt := hwork _ _ _ hst
    rw [List.length_append, List.length_singleton]
    omega

/-- A one-step run. -/
theorem Run.single {a : α} (h : M.step s a t) : M.Run s [a] t :=
  .snoc .nil h

/-- The runs of `M` whose steps all meet a condition. -/
def restrict (M : System σ α) (C : σ → α → Prop) : System σ α where
  init := M.init
  step s a t := M.step s a t ∧ C s a

theorem Reachable.of_restrict {C : σ → α → Prop} {s : σ} (h : (M.restrict C).Reachable s) :
    M.Reachable s := by
  induction h with
  | init h => exact .init h
  | step _ hst ih => exact .step ih hst.1

/-- `M` refines `N` through `abs`: from reachable states, a step of `M` is a step of `N` or is
invisible in it. -/
structure Refines (M : System σ α) (N : System τ β) (abs : σ → τ) : Prop where
  init : ∀ s, M.init s → N.init (abs s)
  step : ∀ s a t, M.Reachable s → M.step s a t →
    abs s = abs t ∨ ∃ b, N.step (abs s) b (abs t)

/-- A refinement carries reachable states to reachable states. -/
theorem Refines.reachable {abs : σ → τ} (h : Refines M N abs) {s : σ} (hs : M.Reachable s) :
    N.Reachable (abs s) := by
  induction hs with
  | init hinit => exact .init (h.init _ hinit)
  | step hs hst ih =>
    rcases h.step _ _ _ hs hst with heq | ⟨b, hb⟩
    · rwa [← heq]
    · exact .step ih hb

/-- What every run of the refined system preserves, every run of the refining one preserves. -/
theorem Refines.run_invariant {abs : σ → τ} (h : Refines M N abs) {P : τ → Prop}
    (hstep : ∀ s b t, N.Reachable s → P s → N.step s b t → P t)
    (hs : M.Reachable s) (hP : P (abs s)) (hrun : M.Run s labels t) : P (abs t) := by
  refine Run.invariant (P := fun s => P (abs s)) (fun s a t hs hP hst => ?_) hs hP hrun
  rcases h.step s a t hs hst with heq | ⟨b, hb⟩
  · rwa [← heq]
  · exact hstep _ b _ (h.reachable hs) hP hb

end System

end GraphLoom.Foundation
