import Mathlib.Data.List.Forall2

/-!
# Fallible computations

When a computation of several fallible parts ends well, each part has ended well.

A loop over the positions of rows does what a loop over the rows does, when each turn depends on the
row only (`mapM_range_eq_ok`, `foldlM_range`).  What every turn of a loop keeps holds at its end
(`foldlM_invariant`).

`Related R x y` says that two runs either both fail, with the same error, or end with results that
`R` relates.  It goes through the parts of a computation one by one (`Related.bind`), over loops
(`Related.foldlM`) and comes out as an equality of what the results have in common (`Related.map`).
-/

namespace GraphLoom.Foundation

section Parts

universe u

variable {α ε : Type*} {β γ δ : Type u}

theorem bind_eq_ok {x : Except ε β} {f : β → Except ε γ} {c : γ} :
    x >>= f = .ok c ↔ ∃ b, x = .ok b ∧ f b = .ok c := by
  cases x with
  | error e => simp [bind, Except.bind]
  | ok b => simp [bind, Except.bind]

/-- What ends well still does when each of its steps does. -/
theorem except_bind_mono {x x' : Except ε β} {f : β → Except ε γ} {f' : β → Except ε δ} {c : γ}
    {d : δ} (hx : ∀ b, x = .ok b → x' = .ok b) (hf : ∀ b, f b = .ok c → f' b = .ok d)
    (h : x >>= f = .ok c) : x' >>= f' = .ok d := by
  obtain ⟨b, hb, h⟩ := bind_eq_ok.mp h
  exact bind_eq_ok.mpr ⟨b, hx b hb, hf b h⟩

theorem map_eq_ok {x : Except ε α} {f : α → β} {b : β} :
    x.map f = .ok b ↔ ∃ a, x = .ok a ∧ f a = b := by
  cases x with
  | error e => simp [Except.map]
  | ok a => simp [Except.map]

variable {f : α → Except ε β}

/-- A fallible map ends well when it does on every element. -/
theorem mapM_eq_ok_iff {xs : List α} {ys : List β} :
    xs.mapM f = .ok ys ↔ List.Forall₂ (fun x y => f x = .ok y) xs ys := by
  induction xs generalizing ys with
  | nil =>
    rw [List.mapM_nil, List.forall₂_nil_left_iff]
    constructor
    · intro h
      exact (Except.ok.inj h).symm
    · rintro rfl
      rfl
  | cons x xs ih =>
    rw [List.mapM_cons, List.forall₂_cons_left_iff, bind_eq_ok]
    constructor
    · rintro ⟨y, hy, h⟩
      obtain ⟨ys', hys, h⟩ := bind_eq_ok.mp h
      exact ⟨y, ys', hy, ih.mp hys, (Except.ok.inj h).symm⟩
    · rintro ⟨y, ys', hy, hys, rfl⟩
      exact ⟨y, hy, bind_eq_ok.mpr ⟨ys', ih.mpr hys, rfl⟩⟩

/-- A fallible map fails with the error of the first element on which it does. -/
theorem mapM_eq_error_iff {xs : List α} {e : ε} :
    xs.mapM f = .error e ↔ ∃ before x after ys, xs = before ++ x :: after ∧
      List.Forall₂ (fun x y => f x = .ok y) before ys ∧ f x = .error e := by
  induction xs with
  | nil =>
    rw [List.mapM_nil]
    refine iff_of_false (fun h => nomatch h) ?_
    rintro ⟨before, x, after, -, heq, -⟩
    exact absurd heq (by simp)
  | cons x xs ih =>
    rw [List.mapM_cons]
    cases hx : f x with
    | error e' =>
      constructor
      · intro h
        obtain rfl := Except.error.inj h
        exact ⟨[], x, xs, [], rfl, .nil, hx⟩
      · rintro ⟨before, x', after, ys, heq, hbefore, hx'⟩
        cases hbefore with
        | nil =>
          obtain ⟨rfl, -⟩ := List.cons.inj heq
          obtain rfl := Except.error.inj (hx.symm.trans hx')
          rfl
        | cons hy _ =>
          obtain ⟨rfl, -⟩ := List.cons.inj heq
          cases hx.symm.trans hy
    | ok y =>
      have hrest : (xs.mapM f >>= fun ys => pure (y :: ys)) = .error e ↔ xs.mapM f = .error e := by
        cases xs.mapM f with
        | error e' => exact Iff.rfl
        | ok ys => exact iff_of_false (fun h => nomatch h) (fun h => nomatch h)
      refine hrest.trans (ih.trans ?_)
      constructor
      · rintro ⟨before, x', after, ys, rfl, hbefore, hx'⟩
        exact ⟨x :: before, x', after, y :: ys, rfl, .cons hx hbefore, hx'⟩
      · rintro ⟨before, x', after, ys, heq, hbefore, hx'⟩
        cases hbefore with
        | nil =>
          obtain ⟨rfl, -⟩ := List.cons.inj heq
          cases hx.symm.trans hx'
        | cons hy hbefore =>
          obtain ⟨rfl, rfl⟩ := List.cons.inj heq
          exact ⟨_, x', after, _, rfl, hbefore, hx'⟩

/-- A fallible map ends well when no element fails. -/
theorem exists_mapM_ok {xs : List α} (h : ∀ x ∈ xs, ∃ y, f x = .ok y) :
    ∃ ys, xs.mapM f = .ok ys := by
  cases hmap : xs.mapM f with
  | error e =>
    obtain ⟨before, x, after, -, rfl, -, hx⟩ := mapM_eq_error_iff.mp hmap
    obtain ⟨y, hy⟩ := h x (List.mem_append_right _ (List.mem_cons_self ..))
    cases hx.symm.trans hy
  | ok ys => exact ⟨ys, rfl⟩

/-- A fallible loop that ends well did so on every element. -/
theorem forM_eq_ok {f : α → Except ε Unit} {xs : List α} (h : xs.forM f = .ok ()) :
    ∀ x ∈ xs, f x = .ok () := by
  induction xs with
  | nil => exact fun x hx => absurd hx List.not_mem_nil
  | cons x xs ih =>
    obtain ⟨_, hx, hxs⟩ := bind_eq_ok.mp h
    intro y hy
    rcases List.mem_cons.mp hy with rfl | hy
    · exact hx
    · exact ih hxs y hy

/-! ### Corresponding elements -/

variable {δ : Type*} {R : α → δ → Prop} {xs : List α} {zs : List δ}

section

variable (h : List.Forall₂ R xs zs)
include h

/-- An element has a corresponding one. -/
theorem forall₂_exists_right {x : α} (hx : x ∈ xs) : ∃ z ∈ zs, R x z := by
  induction h with
  | nil => exact absurd hx List.not_mem_nil
  | @cons x' z' xs zs hR _ ih =>
    rcases List.mem_cons.mp hx with rfl | hx
    · exact ⟨z', List.mem_cons_self .., hR⟩
    · obtain ⟨z, hz, hxz⟩ := ih hx
      exact ⟨z, List.mem_cons_of_mem _ hz, hxz⟩

/-- An element corresponds to one. -/
theorem forall₂_exists_left {z : δ} (hz : z ∈ zs) : ∃ x ∈ xs, R x z := by
  have hflip : List.Forall₂ (flip R) zs xs := List.Forall₂.flip h
  exact forall₂_exists_right hflip hz

/-- An element has one that corresponds to it in two ways. -/
theorem forall₂_exists_both {S : α → δ → Prop} (h' : List.Forall₂ S xs zs)
    {x : α} (hx : x ∈ xs) : ∃ z ∈ zs, R x z ∧ S x z := by
  induction h with
  | nil => exact absurd hx List.not_mem_nil
  | @cons x' z' xs zs hR _ ih =>
    rw [List.forall₂_cons] at h'
    rcases List.mem_cons.mp hx with rfl | hx
    · exact ⟨z', List.mem_cons_self .., hR, h'.1⟩
    · obtain ⟨z, hz, hboth⟩ := ih h'.2 hx
      exact ⟨z, List.mem_cons_of_mem _ hz, hboth⟩

/-- What has the same index corresponds. -/
theorem forall₂_getElem? (i : ℕ) :
    (xs[i]? = none ∧ zs[i]? = none) ∨ ∃ x z, xs[i]? = some x ∧ zs[i]? = some z ∧ R x z := by
  induction h generalizing i with
  | nil => exact .inl ⟨rfl, rfl⟩
  | @cons x z xs zs hR _ ih =>
    cases i with
    | zero => exact .inr ⟨x, z, rfl, rfl, hR⟩
    | succ i => exact ih i

end

/-- Elements with and without a result, and the results that there are. -/
theorem forall₂_filterMap {R' : α → Option δ → Prop} {p : α → Bool} {S : α → δ → Prop}
    {zs : List (Option δ)}
    (hnone : ∀ x, R' x none → p x = false) (hsome : ∀ x z, R' x (some z) → p x = true ∧ S x z)
    (h : List.Forall₂ R' xs zs) : List.Forall₂ S (xs.filter p) (zs.filterMap id) := by
  induction h with
  | nil => exact .nil
  | @cons x z xs zs hR _ ih =>
    cases z with
    | none =>
      rw [List.filter_cons_of_neg (by rw [hnone x hR]; exact Bool.false_ne_true)]
      exact ih
    | some z =>
      obtain ⟨hp, hS⟩ := hsome x z hR
      rw [List.filter_cons_of_pos hp]
      exact .cons hS ih

/-- Corresponding elements can be replaced. -/
theorem forall₂_set (h : List.Forall₂ R xs zs) (i : ℕ) {x : α} {z : δ} (hR : R x z) :
    List.Forall₂ R (xs.set i x) (zs.set i z) := by
  induction h generalizing i with
  | nil => exact .nil
  | cons hR' h ih =>
    cases i with
    | zero => exact .cons hR h
    | succ i => exact .cons hR' (ih i)

end Parts

/-! ## Loops over rows -/

section Loops

variable {ε α β ρ : Type*}

theorem foldlM_invariant {P : β → Prop} {f : β → α → Except ε β} {xs : List α} {a b : β}
    (h : xs.foldlM f a = .ok b) (ha : P a) (hstep : ∀ a x a', P a → f a x = .ok a' → P a') :
    P b := by
  induction xs generalizing a with
  | nil =>
    obtain rfl := Except.ok.inj h
    exact ha
  | cons x xs ih =>
    rw [List.foldlM_cons] at h
    obtain ⟨a', hx, hxs⟩ := bind_eq_ok.mp h
    exact ih hxs (hstep a x a' ha hx)

/-- A loop each turn of which reads a row and then adds it adds all that it reads. -/
theorem foldlM_eq_ok_iff {γ δ : Type*} {read : α → γ → Prop} {add : δ → γ → δ}
    {turn : δ → α → Except ε δ} {xs : List α} {a b : δ}
    (hturn : ∀ a x a', turn a x = .ok a' ↔ ∃ y, read x y ∧ add a y = a') :
    xs.foldlM turn a = .ok b ↔ ∃ ys, List.Forall₂ read xs ys ∧ ys.foldl add a = b := by
  induction xs generalizing a with
  | nil =>
    constructor
    · intro h
      exact ⟨[], .nil, Except.ok.inj h⟩
    · rintro ⟨ys, hys, rfl⟩
      rw [List.forall₂_nil_left_iff.mp hys]
      rfl
  | cons x xs ih =>
    rw [List.foldlM_cons, bind_eq_ok]
    constructor
    · rintro ⟨a', hx, hxs⟩
      obtain ⟨y, hy, rfl⟩ := (hturn a x a').mp hx
      obtain ⟨ys, hys, hfold⟩ := ih.mp hxs
      exact ⟨y :: ys, .cons hy hys, hfold⟩
    · rintro ⟨_, hread, hfold⟩
      obtain ⟨y, ys, hy, hys, rfl⟩ := List.forall₂_cons_left_iff.mp hread
      exact ⟨add a y, (hturn a x _).mpr ⟨y, hy, rfl⟩, ih.mpr ⟨ys, hys, hfold⟩⟩

/-- Each turn over a position is a turn over the row at it. -/
theorem foldlM_range {rows : List ρ} {f : β → ℕ → Except ε β} {g : β → ρ → Except ε β}
    (h : ∀ i row, rows[i]? = some row → ∀ a, f a i = g a row) (a : β) :
    (List.range rows.length).foldlM f a = rows.foldlM g a := by
  induction rows generalizing f a with
  | nil => rfl
  | cons row rows ih =>
    rw [List.length_cons, List.range_succ_eq_map, List.foldlM_cons, List.foldlM_cons,
      h 0 row rfl a]
    congr 1
    funext a'
    rw [List.foldlM_map]
    exact ih (fun i row' hrow b => h (i + 1) row' hrow b) a'

theorem mapM_range_eq_ok {rows : List ρ} {f : ℕ → Except ε β} {g : ρ → β}
    (h : ∀ i row, rows[i]? = some row → f i = .ok (g row)) :
    (List.range rows.length).mapM f = .ok (rows.map g) := by
  rw [mapM_eq_ok_iff, List.forall₂_iff_get]
  refine ⟨by simp, fun i hi hrows => ?_⟩
  rw [List.length_map] at hrows
  simp only [List.get_eq_getElem, List.getElem_range, List.getElem_map]
  exact h i rows[i] (List.getElem?_eq_getElem hrows)

theorem forM_eq_ok_of_forall {f : α → Except ε Unit} {xs : List α} (h : ∀ x ∈ xs, f x = .ok ()) :
    xs.forM f = .ok () := by
  induction xs with
  | nil => rfl
  | cons x xs ih =>
    obtain ⟨hx, hxs⟩ := List.forall_mem_cons.mp h
    show (do f x; xs.forM f) = _
    rw [hx]
    exact ih hxs

end Loops

/-! ## Two runs of a fallible computation -/

section TwoRuns

universe u

variable {α β ε ι : Type*} {γ δ σ τ : Type u}

def Related (R : α → β → Prop) : Except ε α → Except ε β → Prop
  | .ok a, .ok b => R a b
  | .error e, .error e' => e = e'
  | _, _ => False

variable {R : α → β → Prop} {x : Except ε α} {y : Except ε β}

theorem Related.ok {a : α} {b : β} (h : R a b) :
    Related R (.ok a : Except ε α) (.ok b : Except ε β) := h

theorem Related.refl {R : α → α → Prop} (h : ∀ a, R a a) (x : Except ε α) : Related R x x := by
  cases x with
  | error e => rfl
  | ok a => exact h a

theorem Related.mono {S : α → β → Prop} (hRS : ∀ a b, R a b → S a b) (h : Related R x y) :
    Related S x y := by
  cases x with
  | error e =>
    cases y with
    | error e' => exact h
    | ok b => exact h
  | ok a =>
    cases y with
    | error e => exact h
    | ok b => exact hRS a b h

/-- One part of two runs after another. -/
theorem Related.bind {R : σ → τ → Prop} {S : γ → δ → Prop} {x : Except ε σ} {y : Except ε τ}
    {f : σ → Except ε γ} {g : τ → Except ε δ} (h : Related R x y)
    (hfg : ∀ a b, R a b → Related S (f a) (g b)) : Related S (x >>= f) (y >>= g) := by
  cases x with
  | error e =>
    cases y with
    | error e' => exact h
    | ok b => exact h.elim
  | ok a =>
    cases y with
    | error e => exact h.elim
    | ok b => exact hfg a b h

/-- Two runs that begin with the same part. -/
theorem Related.bind_same {S : γ → δ → Prop} {x : Except ε σ} {f : σ → Except ε γ}
    {g : σ → Except ε δ} (hfg : ∀ a, x = .ok a → Related S (f a) (g a)) :
    Related S (x >>= f) (x >>= g) := by
  cases x with
  | error e => rfl
  | ok a => exact hfg a rfl

/-- A loop in two runs, with the same items. -/
theorem Related.foldlM {R : σ → τ → Prop} {f : σ → ι → Except ε σ} {g : τ → ι → Except ε τ}
    (hstep : ∀ a b i, R a b → Related R (f a i) (g b i)) {a : σ} {b : τ} (h : R a b)
    (items : List ι) : Related R (items.foldlM f a) (items.foldlM g b) := by
  induction items generalizing a b with
  | nil => exact h
  | cons item items ih =>
    rw [List.foldlM_cons, List.foldlM_cons]
    exact (hstep a b item h).bind fun a' b' h' => ih h'

/-- What related results have in common is equal. -/
theorem Related.map {f : α → γ} {g : β → γ} (hfg : ∀ a b, R a b → f a = g b)
    (h : Related R x y) : x.map f = y.map g := by
  cases x with
  | error e =>
    cases y with
    | error e' => exact congrArg Except.error h
    | ok b => exact h.elim
  | ok a =>
    cases y with
    | error e => exact h.elim
    | ok b => exact congrArg Except.ok (hfg a b h)

end TwoRuns

end GraphLoom.Foundation
