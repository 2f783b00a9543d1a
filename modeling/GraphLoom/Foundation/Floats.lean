import GraphLoom.Foundation.Comparators
import GraphLoom.Foundation.JsValue
import Mathlib.Data.Int.Log
import Mathlib.Data.Rat.Floor

/-!
# Rounding and partial comparison of floats

The float nearest to a rational that is not negative, ties to even, and the comparison of floats,
which is partial only for a NaN.  Comparators that fall back to equality for a NaN sort values
without NaN by their order.
-/

namespace GraphLoom.Foundation

open Std

namespace F64

/-! ### Rounding -/

/-- The nearest natural number, ties to even. -/
def roundHalfEven (q : ℚ) : ℕ :=
  let floor := ⌊q⌋₊
  let rest := q - floor
  if 1 / 2 < rest ∨ rest = 1 / 2 ∧ floor % 2 = 1 then floor + 1 else floor

/-- The float nearest to a rational that is not negative.  A significand that is rounded up to the
next power of two carries into the exponent. -/
def ofRat (q : ℚ) : F64 :=
  if q = 0 then ⟨0⟩
  else
    let exponent := max (Int.log 2 q) (-1022)
    let significand := roundHalfEven (q * (2 : ℚ) ^ (52 - exponent))
    ⟨BitVec.ofNat 64 (min ((exponent + 1022).toNat * 2 ^ 52 + significand) (0x7FF * 2 ^ 52))⟩

/-- `a as f64 / b as f64`. -/
def ratio (a b : ℕ) : F64 :=
  ofRat (Js.doubleValue (ofRat a) / Js.doubleValue (ofRat b))

/-- Nothing up to the bits of the infinity is a NaN. -/
theorem isNaN_ofNat {n : ℕ} (h : n ≤ 0x7FF * 2 ^ 52) : (⟨BitVec.ofNat 64 n⟩ : F64).isNaN = false := by
  unfold isNaN
  rw [Bool.and_eq_false_iff, bne_eq_false_iff_eq, beq_eq_false_iff_ne, ne_eq]
  simp only [BitVec.toNat_eq, BitVec.extractLsb'_toNat, BitVec.toNat_ofNat, Nat.shiftRight_eq_div_pow]
  omega

theorem isNaN_ofRat (q : ℚ) : (ofRat q).isNaN = false := by
  unfold ofRat
  split_ifs
  · rfl
  · exact isNaN_ofNat (min_le_right _ _)

/-! ### Comparison -/

/-- The place of a float in the order, where both zeros have one place. -/
def orderKey (x : F64) : ℤ :=
  let magnitude : ℤ := (x.bits.extractLsb' 0 63).toNat
  if x.bits.msb then -magnitude else magnitude

/-- `f64::partial_cmp`. -/
def partialCmp (x y : F64) : Option Ordering :=
  if x.isNaN ∨ y.isNaN then none else some (compare x.orderKey y.orderKey)

theorem partialCmp_eq {x y : F64} (hx : x.isNaN = false) (hy : y.isNaN = false) :
    partialCmp x y = some (compare x.orderKey y.orderKey) := by
  unfold partialCmp
  rw [if_neg]
  simp [hx, hy]

end F64

end GraphLoom.Foundation
