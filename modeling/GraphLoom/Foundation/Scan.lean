import Mathlib.Data.List.Infix

/-!
# Scanning and splitting

A scanner holds an index into a list.  `scanWhile` moves it over the elements that satisfy a
condition, and `slice` reads what lies between two indices.  The lemmas say where the index is by
what lies before it.

A list is split at the occurrences of a delimiter, from the left.  Pieces that are joined with the
delimiter are split into themselves when no occurrence begins inside one of them
(`splitAtAll_intercalate`).  A text behind another one continues its last piece
(`splitAtAll_append_last`).
-/

namespace GraphLoom.Foundation

section Scanning

variable {α : Type*}

/-- The first index from `start` on that is past the end or has an element without `p`. -/
def scanWhile (p : α → Bool) (xs : List α) (start : ℕ) : ℕ :=
  if h : start < xs.length then
    if p xs[start] then scanWhile p xs (start + 1) else start
  else start
termination_by xs.length - start

/-- The elements between two indices, when these are in order and in range. -/
def slice (xs : List α) (start stop : ℕ) : Option (List α) :=
  if start ≤ stop ∧ stop ≤ xs.length then some ((xs.take stop).drop start) else none

variable {p : α → Bool}

theorem le_scanWhile (p : α → Bool) (xs : List α) (start : ℕ) : start ≤ scanWhile p xs start := by
  fun_induction scanWhile p xs start with
  | case1 start h hp ih => omega
  | case2 => exact Nat.le_refl _
  | case3 => exact Nat.le_refl _

/-- The scan stops behind the elements that satisfy the condition. -/
theorem scanWhile_append (before run after : List α) (hrun : ∀ x ∈ run, p x = true)
    (hafter : ∀ x, after.head? = some x → p x = false) :
    scanWhile p (before ++ (run ++ after)) before.length = before.length + run.length := by
  induction run generalizing before with
  | nil =>
    rw [scanWhile]
    cases after with
    | nil => simp
    | cons x after =>
      have hx : p x = false := hafter x rfl
      simp [hx]
  | cons x run ih =>
    have hx : p x = true := hrun x (List.mem_cons_self ..)
    have hnext := ih (before ++ [x]) fun y hy => hrun y (List.mem_cons_of_mem _ hy)
    rw [List.append_assoc, List.singleton_append, List.length_append, List.length_singleton] at hnext
    rw [scanWhile]
    have hlt : before.length < (before ++ (x :: run ++ after)).length := by simp
    have hget : (before ++ (x :: run ++ after))[before.length] = x := by simp
    rw [dif_pos hlt, hget, if_pos hx, List.cons_append, hnext, List.length_cons]
    omega

/-- What lies between the indices of two joints. -/
theorem slice_append (before inner after : List α) :
    slice (before ++ (inner ++ after)) before.length (before.length + inner.length) = some inner := by
  unfold slice
  rw [if_pos (by simp), List.take_append, List.take_of_length_le (by omega),
    Nat.add_sub_cancel_left, List.take_left, List.drop_left]

end Scanning

/-! ## Splitting at a delimiter -/

section Splitting

variable {α : Type*} [DecidableEq α]

/-- The pieces between the occurrences of a delimiter, which is not empty. -/
def splitAtAll (delim : List α) : List α → List (List α)
  | [] => [[]]
  | x :: xs =>
    if delim <+: x :: xs then
      [] :: splitAtAll delim (xs.drop (delim.length - 1))
    else match splitAtAll delim xs with
      | [] => [[x]]
      | piece :: pieces => (x :: piece) :: pieces
termination_by xs => xs.length
decreasing_by
  · rw [List.length_drop, List.length_cons]
    omega
  · simp

/-- No occurrence of the delimiter begins inside of the piece, when the delimiter follows it. -/
def Separated (delim piece : List α) : Prop :=
  ∀ front back, piece = front ++ back → back ≠ [] → ¬ delim <+: back ++ delim

variable {delim piece : List α}

omit [DecidableEq α] in
theorem Separated.tail {x : α} (h : Separated delim (x :: piece)) : Separated delim piece :=
  fun front back hsplit => h (x :: front) back (by rw [hsplit]; rfl)

/-- A piece without the delimiter is not split. -/
theorem splitAtAll_of_not_occurs (h : ¬ delim <:+: piece) :
    splitAtAll delim piece = [piece] := by
  induction piece with
  | nil => rw [splitAtAll]
  | cons x xs ih =>
    have hstarts : ¬ delim <+: x :: xs := fun hp => h hp.isInfix
    have hrest : ¬ delim <:+: xs := fun hi => h (hi.trans (List.suffix_cons x xs).isInfix)
    rw [splitAtAll, if_neg hstarts, ih hrest]

/-- A piece that is separated from the delimiter behind it is split off. -/
theorem splitAtAll_append (hdelim : delim ≠ []) (h : Separated delim piece) (rest : List α) :
    splitAtAll delim (piece ++ (delim ++ rest)) = piece :: splitAtAll delim rest := by
  induction piece with
  | nil =>
    cases delim with
    | nil => exact absurd rfl hdelim
    | cons d delim =>
      have hstarts : d :: delim <+: d :: (delim ++ rest) := ⟨rest, rfl⟩
      rw [List.nil_append, List.cons_append, splitAtAll, if_pos hstarts]
      simp
  | cons x piece ih =>
    have hstarts : ¬ delim <+: x :: piece ++ (delim ++ rest) := by
      intro hp
      refine h [] (x :: piece) rfl (List.cons_ne_nil _ _) ?_
      rw [← List.append_assoc] at hp
      exact List.prefix_of_prefix_length_le hp (List.prefix_append _ rest) (by simp; omega)
    rw [List.cons_append] at hstarts ⊢
    rw [splitAtAll, if_neg hstarts, ih h.tail]

/-- **Pieces that are joined are split into themselves.** -/
theorem splitAtAll_intercalate (hdelim : delim ≠ []) {pieces : List (List α)} (hne : pieces ≠ [])
    (hseparated : ∀ piece ∈ pieces, Separated delim piece ∧ ¬ delim <:+: piece) :
    splitAtAll delim (delim.intercalate pieces) = pieces := by
  induction pieces with
  | nil => exact absurd rfl hne
  | cons piece pieces ih =>
    obtain ⟨hpiece, hoccurs⟩ := hseparated piece (List.mem_cons_self ..)
    cases pieces with
    | nil =>
      rw [List.intercalate_singleton]
      exact splitAtAll_of_not_occurs hoccurs
    | cons next pieces =>
      rw [List.intercalate_cons_cons, List.append_assoc, splitAtAll_append hdelim hpiece,
        ih (List.cons_ne_nil _ _) fun p hp => hseparated p (List.mem_cons_of_mem _ hp)]

/-! ### A text behind a text -/

theorem splitAtAll_ne_nil (xs : List α) : splitAtAll delim xs ≠ [] := by
  cases xs with
  | nil => simp [splitAtAll]
  | cons x xs =>
    rw [splitAtAll]
    split
    · exact List.cons_ne_nil _ _
    · split <;> exact List.cons_ne_nil _ _

/-- What is not split is one piece. -/
theorem eq_of_splitAtAll_eq_singleton {xs : List α} (h : splitAtAll delim xs = [piece]) :
    piece = xs := by
  induction xs generalizing piece with
  | nil =>
    rw [splitAtAll] at h
    exact (List.singleton_inj.mp h).symm
  | cons x xs ih =>
    rw [splitAtAll] at h
    split at h
    · exact absurd (List.cons.inj h).2 (splitAtAll_ne_nil _)
    · split at h
      · next hnil => exact absurd hnil (splitAtAll_ne_nil xs)
      · next front pieces hxs =>
        obtain ⟨rfl, rfl⟩ := List.cons.inj h
        rw [ih hxs]

/-- What is split is as long as the delimiter. -/
theorem length_le_of_splitAtAll {xs first second : List α} {pieces : List (List α)}
    (h : splitAtAll delim xs = first :: second :: pieces) : delim.length ≤ xs.length := by
  induction xs generalizing first with
  | nil =>
    rw [splitAtAll] at h
    exact absurd (List.cons.inj h).2 (List.cons_ne_nil _ _).symm
  | cons x xs ih =>
    rw [splitAtAll] at h
    split at h
    · next hstarts => exact hstarts.length_le
    · split at h
      · next hnil => exact absurd hnil (splitAtAll_ne_nil xs)
      · next front rest hxs =>
        obtain ⟨-, rfl⟩ := List.cons.inj h
        exact (ih hxs).trans (Nat.le_succ _)

/-- **A text goes to the last piece of the text before it**, when no delimiter begins in that piece
and ends in the text. -/
theorem splitAtAll_append_last {xs ys last head : List α} {front tail : List (List α)}
    (hxs : splitAtAll delim xs = front ++ [last])
    (hys : splitAtAll delim ys = head :: tail)
    (hlast : ∀ back, back <:+ last → back ≠ [] → back.length < delim.length →
      ¬ delim <+: back ++ ys) :
    splitAtAll delim (xs ++ ys) = front ++ (last ++ head) :: tail := by
  -- the induction is on the length, as the text behind a delimiter is not the tail
  induction hlength : xs.length using Nat.strong_induction_on generalizing xs front last with
  | _ n ih =>
  cases xs with
  | nil =>
    rw [splitAtAll] at hxs
    obtain ⟨rfl, rfl⟩ : front = [] ∧ last = [] := by
      cases front with
      | nil => exact ⟨rfl, (List.singleton_inj.mp hxs).symm⟩
      | cons piece front => simp at hxs
    rw [List.nil_append, List.nil_append, List.nil_append, hys]
  | cons x xs =>
    rw [List.length_cons] at hlength
    rw [splitAtAll] at hxs
    rw [List.cons_append, splitAtAll]
    by_cases hstarts : delim <+: x :: xs
    · have hstarts' : delim <+: x :: (xs ++ ys) := hstarts.trans (List.prefix_append (x :: xs) ys)
      have hle := hstarts.length_le
      rw [List.length_cons] at hle
      rw [if_pos hstarts] at hxs
      rw [if_pos hstarts', List.drop_append_of_le_length (by omega)]
      cases front with
      | nil => exact absurd (List.cons.inj hxs).2 (splitAtAll_ne_nil _)
      | cons piece front =>
        obtain ⟨rfl, hrest⟩ := List.cons.inj hxs
        rw [ih _ (by rw [List.length_drop]; omega) hrest hlast rfl]
        rfl
    · rw [if_neg hstarts] at hxs
      cases hsplit : splitAtAll delim xs with
      | nil => exact absurd hsplit (splitAtAll_ne_nil xs)
      | cons piece pieces =>
        rw [hsplit] at hxs
        have hstarts' : ¬ delim <+: x :: (xs ++ ys) := by
          intro hp
          have hshort : ¬ delim.length ≤ (x :: xs).length := fun hle =>
            hstarts (List.prefix_of_prefix_length_le hp (List.prefix_append (x :: xs) ys) hle)
          cases pieces with
          | nil =>
            -- all of the text is in its last piece
            obtain rfl := eq_of_splitAtAll_eq_singleton hsplit
            obtain rfl : x :: piece = last := by
              cases front with
              | nil => exact List.singleton_inj.mp hxs
              | cons first front => simp at hxs
            exact hlast _ (List.suffix_refl _) (List.cons_ne_nil _ _) (not_le.mp hshort) hp
          | cons second pieces =>
            exact hshort ((length_le_of_splitAtAll hsplit).trans (Nat.le_succ _))
        rw [if_neg hstarts']
        cases front with
        | nil =>
          obtain ⟨rfl, rfl⟩ := List.cons.inj hxs
          have hrest : splitAtAll delim (xs ++ ys) = [] ++ (piece ++ head) :: tail :=
            ih xs.length (by omega) hsplit (fun back hback =>
              hlast back (hback.trans (List.suffix_cons x piece))) rfl
          rw [hrest]
          rfl
        | cons first front =>
          obtain ⟨rfl, rfl⟩ := List.cons.inj hxs
          have hrest : splitAtAll delim (xs ++ ys) = (piece :: front) ++ (last ++ head) :: tail :=
            ih xs.length (by omega) hsplit hlast rfl
          rw [hrest]
          rfl

omit [DecidableEq α] in
/-- A piece without the delimiter is separated from it when it does not end with what the delimiter
begins with, unless that is all of it. -/
theorem separated_of_not_occurs (hoccurs : ¬ delim <:+: piece)
    (hborder : ∀ back, back <:+ piece → back ≠ [] → back.length < delim.length →
      ¬ delim <+: back ++ delim) : Separated delim piece := by
  intro front back hsplit hback hstarts
  have hsuffix : back <:+ piece := ⟨front, hsplit.symm⟩
  by_cases hlength : back.length < delim.length
  · exact hborder back hsuffix hback hlength hstarts
  · have hle : delim <+: back :=
      List.prefix_of_prefix_length_le hstarts (List.prefix_append _ _) (by omega)
    exact hoccurs (hle.isInfix.trans hsuffix.isInfix)

omit [DecidableEq α] in
/-- Another element between two texts joins no delimiter. -/
theorem not_occurs_append_cons {front back : List α} {c : α} (hc : c ∉ delim)
    (hfront : ¬ delim <:+: front) (hback : ¬ delim <:+: back) :
    ¬ delim <:+: front ++ c :: back := by
  rintro ⟨before, after, h⟩
  rcases List.append_eq_append_iff.mp h with ⟨rest, hrest, -⟩ | ⟨rest, hbefore, hrest⟩
  · exact hfront ⟨before, rest, hrest.symm⟩
  · cases rest with
    | nil =>
      rw [List.append_nil] at hbefore
      exact hfront ⟨before, [], by rw [List.append_nil, hbefore]⟩
    | cons d rest =>
      obtain ⟨rfl, rfl⟩ := List.cons.inj hrest
      rcases List.append_eq_append_iff.mp hbefore with ⟨rest', -, hdelim⟩ | ⟨rest', -, hdelim⟩
      · exact hc (by rw [hdelim]; simp)
      · cases rest' with
        | nil =>
          rw [List.nil_append] at hdelim
          exact hc (by rw [← hdelim]; exact List.mem_cons_self ..)
        | cons e rest' =>
          obtain ⟨-, rfl⟩ := List.cons.inj hdelim
          exact hback ⟨rest', after, rfl⟩

end Splitting

end GraphLoom.Foundation
