import GraphLoom.Foundation.Json
import Mathlib.Algebra.Order.Ring.Rat
import Mathlib.Data.List.Sort

/-!
# JavaScript values

The values a script reads from a parsed document.  A finite number is a rational, so that equal
doubles are equal numbers; a property that an object does not have is `undefined`.  A type guard is
a reading of a value that fails where the guard is false.
-/

namespace GraphLoom.Foundation.Js

inductive Number where
  | finite (value : ℚ)
  | nonFinite
deriving DecidableEq, Repr

inductive Value where
  | undefined
  | null
  | boolean (value : Bool)
  | number (value : Number)
  | string (value : String)
  | array (values : List Value)
  | object (properties : List (String × Value))

/-- `Number.MAX_SAFE_INTEGER`. -/
def maxSafeInteger : ℤ := 2 ^ 53 - 1

/-- `Number.MIN_SAFE_INTEGER`. -/
def minSafeInteger : ℤ := -maxSafeInteger

namespace Value

/-- The property of a value under a name. -/
def get (value : Value) (key : String) : Value :=
  match value with
  | object properties => (properties.lookup key).getD undefined
  | _ => undefined

/-- `typeof value === "object" && value !== null`. -/
def isObject : Value → Bool
  | array _ => true
  | object _ => true
  | _ => false

def string? : Value → Option String
  | string value => some value
  | _ => none

def boolean? : Value → Option Bool
  | boolean value => some value
  | _ => none

/-- `value === undefined || typeof value === "string"`. -/
def optionalString? : Value → Option (Option String)
  | undefined => some none
  | string value => some (some value)
  | _ => none

/-- `Array.isArray`. -/
def array? : Value → Option (List Value)
  | array values => some values
  | _ => none

/-- `typeof value === "number" && Number.isFinite(value)`. -/
def finiteNumber? : Value → Option ℚ
  | number (.finite value) => some value
  | _ => none

/-- `typeof value === "number" && Number.isSafeInteger(value)`. -/
def safeInteger? : Value → Option ℤ
  | number (.finite value) =>
    if value.den = 1 ∧ minSafeInteger ≤ value.num ∧ value.num ≤ maxSafeInteger then some value.num
    else none
  | _ => none

def nonNegativeInteger? (value : Value) : Option ℤ := value.safeInteger?.filter (0 ≤ ·)

def positiveInteger? (value : Value) : Option ℤ := value.safeInteger?.filter (0 < ·)

def nonEmptyString? (value : Value) : Option String := value.string?.filter (0 < ·.length)

/-- An array whose elements all pass a guard. -/
def arrayOf? {α : Type} (guard : Value → Option α) (value : Value) : Option (List α) := do
  let values ← value.array?
  values.mapM guard

end Value

/-! ### Numbers of a document -/

/-- The double nearest to a natural number, the even one of two. -/
def nearestDouble (n : ℕ) : ℕ :=
  if n < 2 ^ 53 then n
  else
    let unit := 2 ^ (Nat.log2 n - 52)
    let down := n / unit
    let rest := n % unit
    if unit < 2 * rest ∨ (2 * rest = unit ∧ down % 2 = 1) then (down + 1) * unit else down * unit

/-- The number that is read where a document has a natural number. -/
def Value.ofNat (n : ℕ) : Value := .number (.finite (nearestDouble n))

theorem nearestDouble_of_lt {n : ℕ} (h : n < 2 ^ 53) : nearestDouble n = n := by
  rw [nearestDouble, if_pos h]

/-- Rounding does not make a large number small. -/
theorem le_nearestDouble {n : ℕ} (h : 2 ^ 53 ≤ n) : 2 ^ 53 ≤ nearestDouble n := by
  have hlog : 53 ≤ Nat.log2 n := (Nat.le_log2 (by omega)).mpr h
  have hself : 2 ^ Nat.log2 n ≤ n := Nat.log2_self_le (by omega)
  have hsplit : 2 ^ Nat.log2 n = 2 ^ 52 * 2 ^ (Nat.log2 n - 52) := by
    rw [← Nat.pow_add]
    congr 1
    omega
  have hdown : 2 ^ 52 ≤ n / 2 ^ (Nat.log2 n - 52) := by
    rw [Nat.le_div_iff_mul_le (Nat.two_pow_pos _), ← hsplit]
    exact hself
  have hunit : 2 ≤ 2 ^ (Nat.log2 n - 52) := by
    calc 2 = 2 ^ 1 := rfl
      _ ≤ 2 ^ (Nat.log2 n - 52) := Nat.pow_le_pow_right (by omega) (by omega)
  have hfloor : 2 ^ 53 ≤ n / 2 ^ (Nat.log2 n - 52) * 2 ^ (Nat.log2 n - 52) := by
    calc 2 ^ 53 = 2 ^ 52 * 2 := rfl
      _ ≤ _ := Nat.mul_le_mul hdown hunit
  rw [nearestDouble, if_neg (by omega)]
  dsimp only
  split
  · exact hfloor.trans (Nat.mul_le_mul_right _ (Nat.le_succ _))
  · exact hfloor

theorem safeInteger?_ofNat (n : ℕ) :
    (Value.ofNat n).safeInteger? = if n < 2 ^ 53 then some (n : ℤ) else none := by
  unfold Value.ofNat Value.safeInteger?
  dsimp only
  rw [Rat.den_natCast, Rat.num_natCast]
  by_cases h : n < 2 ^ 53
  · have hle : (n : ℤ) ≤ maxSafeInteger := by
      unfold maxSafeInteger
      omega
    have hge : minSafeInteger ≤ (n : ℤ) := by
      unfold minSafeInteger maxSafeInteger
      omega
    rw [nearestDouble_of_lt h, if_pos ⟨rfl, hge, hle⟩, if_pos h]
  · have hlarge := le_nearestDouble (not_lt.mp h)
    rw [if_neg h, if_neg]
    rintro ⟨-, -, hle⟩
    unfold maxSafeInteger at hle
    omega

theorem nonNegativeInteger?_ofNat (n : ℕ) :
    (Value.ofNat n).nonNegativeInteger? = if n < 2 ^ 53 then some (n : ℤ) else none := by
  rw [Value.nonNegativeInteger?, safeInteger?_ofNat]
  split
  · simp [Option.filter]
  · rfl

theorem positiveInteger?_ofNat {n : ℕ} (hpos : 0 < n) :
    (Value.ofNat n).positiveInteger? = if n < 2 ^ 53 then some (n : ℤ) else none := by
  rw [Value.positiveInteger?, safeInteger?_ofNat]
  split
  · simp [Option.filter, hpos]
  · rfl

/-- The value of a finite double, from its sign, its exponent and its mantissa. -/
def doubleValue (x : F64) : ℚ :=
  let mantissa := (x.bits.extractLsb' 0 52).toNat
  let exponent := (x.bits.extractLsb' 52 11).toNat
  let magnitude : ℚ :=
    if exponent = 0 then mantissa / 2 ^ 1074 else (2 ^ 52 + mantissa) * 2 ^ exponent / 2 ^ 1075
  if x.bits.msb then -magnitude else magnitude

/-! ### Sorting -/

/-- `Array.prototype.sort` with the comparator `key(left) - key(right)`; it is stable. -/
def sortBy {α : Type} (key : α → ℚ) (xs : List α) : List α :=
  xs.insertionSort fun a b => key a ≤ key b

theorem sortBy_perm {α : Type} (key : α → ℚ) (xs : List α) : (sortBy key xs).Perm xs :=
  List.perm_insertionSort _ xs

@[simp]
theorem mem_sortBy {α : Type} {key : α → ℚ} {xs : List α} {x : α} : x ∈ sortBy key xs ↔ x ∈ xs :=
  (sortBy_perm key xs).mem_iff

@[simp]
theorem mem_map_sortBy {α β : Type} {key : α → ℚ} {f : α → β} {xs : List α} {y : β} :
    y ∈ (sortBy key xs).map f ↔ y ∈ xs.map f :=
  ((sortBy_perm key xs).map f).mem_iff

theorem sortBy_pairwise {α : Type} (key : α → ℚ) (xs : List α) :
    (sortBy key xs).Pairwise fun a b => key a ≤ key b := by
  have : Std.Total fun a b : α => key a ≤ key b := ⟨fun _ _ => le_total _ _⟩
  have : IsTrans α fun a b => key a ≤ key b := ⟨fun _ _ _ => le_trans⟩
  exact List.pairwise_insertionSort _ xs

theorem sortBy_eq_self {α : Type} {key : α → ℚ} {xs : List α}
    (h : xs.Pairwise fun a b => key a ≤ key b) : sortBy key xs = xs :=
  h.insertionSort_eq

end GraphLoom.Foundation.Js
