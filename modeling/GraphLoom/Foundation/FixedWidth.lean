import Mathlib.Data.List.Lex
import Mathlib.Tactic.Ring

/-!
# Fixed-width decimal texts

A text that lists numbers in columns of fixed width, with fixed separators between them, is compared
character by character exactly as its numbers are compared one after the other
(`renderColumns_lt_iff`), and reads back to them (`readColumns_renderColumns`).  Zero-padded
timestamps are texts of this form.
-/

namespace GraphLoom.Foundation

/-! ### Digits -/

/-- The last `width` decimal digits of a number, zero-padded. -/
def fixedDigits : ℕ → ℕ → List Char
  | 0, _ => []
  | width + 1, n => fixedDigits width (n / 10) ++ [Nat.digitChar (n % 10)]

/-- The value of a decimal digit. -/
def digitValue (c : Char) : Option ℕ :=
  if 48 ≤ c.toNat ∧ c.toNat ≤ 57 then some (c.toNat - 48) else none

/-- Read decimal digits onto an accumulator. -/
def readDigits (acc : ℕ) : List Char → Option ℕ
  | [] => some acc
  | c :: cs =>
    match digitValue c with
    | none => none
    | some d => readDigits (acc * 10 + d) cs

@[simp]
theorem length_fixedDigits (width n : ℕ) : (fixedDigits width n).length = width := by
  induction width generalizing n with
  | zero => rfl
  | succ width ih => rw [fixedDigits, List.length_append, ih, List.length_singleton]

theorem digitValue_digitChar {d : ℕ} (h : d < 10) : digitValue (Nat.digitChar d) = some d := by
  have htoNat : (Nat.digitChar d).toNat = d + 48 := by
    rw [Nat.toNat_digitChar_of_lt_ten h, Nat.add_comm]
  rw [digitValue, htoNat, ite_cond_eq_true _ _ (eq_true (by omega)), Nat.add_sub_cancel]

theorem digitChar_lt_iff {a b : ℕ} (ha : a < 10) (hb : b < 10) :
    Nat.digitChar a < Nat.digitChar b ↔ a < b := by
  have h : ∀ x y : Fin 10, Nat.digitChar x < Nat.digitChar y ↔ x < y := by decide
  exact h ⟨a, ha⟩ ⟨b, hb⟩

theorem digitChar_inj {a b : ℕ} (ha : a < 10) (hb : b < 10) :
    Nat.digitChar a = Nat.digitChar b ↔ a = b := by
  constructor
  · intro h
    have := digitValue_digitChar ha
    rw [h, digitValue_digitChar hb] at this
    exact (Option.some.inj this).symm
  · exact congrArg Nat.digitChar

theorem readDigits_fixedDigits_append (width n acc : ℕ) (cs : List Char) :
    readDigits acc (fixedDigits width n ++ cs) =
      readDigits (acc * 10 ^ width + n % 10 ^ width) cs := by
  induction width generalizing n cs with
  | zero => simp [fixedDigits, Nat.mod_one]
  | succ width ih =>
    have hdigit : n % 10 < 10 := Nat.mod_lt n (by decide)
    have hsplit : n % 10 ^ (width + 1) = n / 10 % 10 ^ width * 10 + n % 10 := by
      rw [pow_succ, Nat.mul_comm (10 ^ width) 10, Nat.mod_mul, Nat.add_comm, Nat.mul_comm]
    have hacc : (acc * 10 ^ width + n / 10 % 10 ^ width) * 10 + n % 10 =
        acc * 10 ^ (width + 1) + n % 10 ^ (width + 1) := by
      rw [hsplit, pow_succ]
      ring
    rw [fixedDigits, List.append_assoc, ih, List.singleton_append, readDigits,
      digitValue_digitChar hdigit, ← hacc]

/-- Fixed-width digits read back to their number. -/
theorem readDigits_fixedDigits {width n : ℕ} (h : n < 10 ^ width) :
    readDigits 0 (fixedDigits width n) = some n := by
  have := readDigits_fixedDigits_append width n 0 []
  rw [List.append_nil, Nat.zero_mul, Nat.zero_add, Nat.mod_eq_of_lt h] at this
  exact this

theorem digitValue_lt {c : Char} {d : ℕ} (h : digitValue c = some d) : d < 10 := by
  unfold digitValue at h
  split at h
  · obtain rfl := Option.some.inj h
    omega
  · cases h

/-- What digits read to has no more digits than there are. -/
theorem readDigits_lt {acc n : ℕ} {cs : List Char} (h : readDigits acc cs = some n) :
    n < (acc + 1) * 10 ^ cs.length := by
  induction cs generalizing acc with
  | nil =>
    obtain rfl : acc = n := Option.some.inj h
    simp
  | cons c cs ih =>
    rw [readDigits] at h
    cases hd : digitValue c with
    | none =>
      rw [hd] at h
      cases h
    | some d =>
      rw [hd] at h
      have hdigit := digitValue_lt hd
      have hacc : acc * 10 + d + 1 ≤ (acc + 1) * 10 := by omega
      calc n < (acc * 10 + d + 1) * 10 ^ cs.length := ih h
        _ ≤ (acc + 1) * 10 * 10 ^ cs.length := Nat.mul_le_mul_right _ hacc
        _ = (acc + 1) * 10 ^ (c :: cs).length := by rw [List.length_cons, pow_succ]; ring

/-- Texts that start with digits of one width compare as the numbers, then as the rests. -/
theorem fixedDigits_append_lt_iff {width n m : ℕ} (hn : n < 10 ^ width) (hm : m < 10 ^ width)
    (xs ys : List Char) :
    fixedDigits width n ++ xs < fixedDigits width m ++ ys ↔ n < m ∨ n = m ∧ xs < ys := by
  induction width generalizing n m xs ys with
  | zero =>
    rw [pow_zero, Nat.lt_one_iff] at hn hm
    simp [hn, hm, fixedDigits]
  | succ width ih =>
    rw [pow_succ] at hn hm
    have hn' : n / 10 < 10 ^ width := Nat.div_lt_of_lt_mul (by omega)
    have hm' : m / 10 < 10 ^ width := Nat.div_lt_of_lt_mul (by omega)
    have hnd : n % 10 < 10 := Nat.mod_lt n (by decide)
    have hmd : m % 10 < 10 := Nat.mod_lt m (by decide)
    rw [fixedDigits, fixedDigits, List.append_assoc, List.append_assoc, ih hn' hm',
      List.singleton_append, List.singleton_append, List.cons_lt_cons_iff,
      digitChar_lt_iff hnd hmd, digitChar_inj hnd hmd]
    by_cases hrest : xs < ys
    · simp only [hrest, and_true]
      omega
    · simp only [hrest, and_false, or_false]
      omega

/-! ### Columns -/

/-- A column: the text before it and its width. -/
abbrev Column := List Char × ℕ

/-- Numbers that fit the columns one to one. -/
inductive FitsColumns : List Column → List ℕ → Prop
  | nil : FitsColumns [] []
  | cons {separator : List Char} {width n : ℕ} {columns : List Column} {ns : List ℕ}
      (fits : n < 10 ^ width) (rest : FitsColumns columns ns) :
      FitsColumns ((separator, width) :: columns) (n :: ns)

/-- Write numbers in their columns, then the closing text. -/
def renderColumns (closing : List Char) : List Column → List ℕ → List Char
  | (separator, width) :: columns, n :: ns =>
    separator ++ (fixedDigits width n ++ renderColumns closing columns ns)
  | _, _ => closing

/-- Read the numbers of the columns back, and require the closing text. -/
def readColumns (closing : List Char) : List Column → List Char → Option (List ℕ)
  | [], cs => if cs = closing then some [] else none
  | (separator, width) :: columns, cs =>
    if separator.isPrefixOf cs then
      let cs := cs.drop separator.length
      if width ≤ cs.length then
        match readDigits 0 (cs.take width), readColumns closing columns (cs.drop width) with
        | some n, some ns => some (n :: ns)
        | _, _ => none
      else none
    else none

/-- Rendered columns read back to their numbers. -/
theorem readColumns_renderColumns (closing : List Char) {columns : List Column} {ns : List ℕ}
    (h : FitsColumns columns ns) :
    readColumns closing columns (renderColumns closing columns ns) = some ns := by
  induction h with
  | nil => simp [renderColumns, readColumns]
  | @cons separator width n columns ns fits rest ih =>
    have htake : (fixedDigits width n ++ renderColumns closing columns ns).take width =
        fixedDigits width n := List.take_left' (length_fixedDigits width n)
    have hdrop : (fixedDigits width n ++ renderColumns closing columns ns).drop width =
        renderColumns closing columns ns := List.drop_left' (length_fixedDigits width n)
    have hlength : width ≤ (fixedDigits width n ++ renderColumns closing columns ns).length := by
      rw [List.length_append, length_fixedDigits]
      exact Nat.le_add_right ..
    have hprefix : separator.isPrefixOf
        (separator ++ (fixedDigits width n ++ renderColumns closing columns ns)) = true := by
      rw [List.isPrefixOf_iff_prefix]
      exact List.prefix_append ..
    rw [renderColumns, readColumns, ite_cond_eq_true _ _ (eq_true hprefix), List.drop_left]
    simp only [hlength, ↓reduceIte, htake, hdrop, readDigits_fixedDigits fits, ih]

/-- The numbers that are read fit the columns. -/
theorem fitsColumns_of_readColumns {closing : List Char} {columns : List Column} {cs : List Char}
    {ns : List ℕ} (h : readColumns closing columns cs = some ns) : FitsColumns columns ns := by
  induction columns generalizing cs ns with
  | nil =>
    rw [readColumns] at h
    split at h
    · obtain rfl : [] = ns := Option.some.inj h
      exact .nil
    · cases h
  | cons column columns ih =>
    obtain ⟨separator, width⟩ := column
    rw [readColumns] at h
    split at h
    · dsimp only at h
      split at h
      · next hwidth =>
        split at h
        · next n rest hn hrest =>
          obtain rfl := Option.some.inj h
          have hlt := readDigits_lt hn
          rw [List.length_take, Nat.min_eq_left hwidth, Nat.zero_add, Nat.one_mul] at hlt
          exact .cons hlt (ih hrest)
        · cases h
      · cases h
    · cases h

theorem append_lt_append_left_iff (front xs ys : List Char) :
    front ++ xs < front ++ ys ↔ xs < ys := by
  induction front with
  | nil => rfl
  | cons c cs ih => simp [List.cons_append, ih]

/-- **Column texts compare as their numbers.** -/
theorem renderColumns_lt_iff (closing : List Char) {columns : List Column} {ns ms : List ℕ}
    (hn : FitsColumns columns ns) (hm : FitsColumns columns ms) :
    renderColumns closing columns ns < renderColumns closing columns ms ↔ ns < ms := by
  induction hn generalizing ms with
  | nil =>
    cases hm
    simp
  | @cons separator width n columns ns fits rest ih =>
    cases hm with
    | @cons _ _ m _ ms fits' rest' =>
      rw [renderColumns, renderColumns, append_lt_append_left_iff,
        fixedDigits_append_lt_iff fits fits', ih rest', List.cons_lt_cons_iff]

end GraphLoom.Foundation
