import Mathlib.Data.Int.Init
import Mathlib.Data.List.Basic
import Mathlib.Algebra.Group.Int.Defs
import Mathlib.Algebra.Group.Nat.Defs

/-!
# Values of data frames

What the workflows share when they read and write tables: their errors, the conversions between
collection lengths and 64-bit integers, and the cells that hold string lists.
-/

namespace GraphLoom

/-! ### Errors -/

/-- The errors of the indexing workflows. -/
inductive GraphLoomError where
  | invalidData (workflow message : String)
  | missingTable (name : String)
  | missingUpdateIdMapping (mapping workflow : String)
  -- the model that summarizes descriptions
  | llm (message : String)
  | promptRender (kind name promptSource message : String)
deriving DecidableEq, Repr

/-- `Option::ok_or`. -/
def okOr {α : Type} (error : GraphLoomError) : Option α → Except GraphLoomError α
  | some value => .ok value
  | none => .error error

@[simp]
theorem okOr_eq_ok_iff {α : Type} {error : GraphLoomError} {o : Option α} {value : α} :
    okOr error o = .ok value ↔ o = some value := by
  cases o <;> simp [okOr]

/-! ### 64-bit integers -/

def i64Min : ℤ := -2 ^ 63

def i64Max : ℤ := 2 ^ 63 - 1

def u32Max : ℕ := 2 ^ 32 - 1

def usizeMax : ℕ := 2 ^ 64 - 1

/-- `usize::saturating_add`. -/
def usizeAdd (a b : ℕ) : ℕ := min usizeMax (a + b)

/-- `i64::checked_add`. -/
def checkedAdd (a b : ℤ) : Option ℤ :=
  if i64Min ≤ a + b ∧ a + b ≤ i64Max then some (a + b) else none

/-- `i64::saturating_add`. -/
def saturatingAdd (a b : ℤ) : ℤ := max i64Min (min i64Max (a + b))

def usizeToI64 (value : ℕ) (workflow field : String) : Except GraphLoomError ℤ :=
  if (value : ℤ) ≤ i64Max then .ok value
  else .error (.invalidData workflow (field ++ " exceeds the supported signed 64-bit range"))

theorem checkedAdd_eq_some_iff {a b c : ℤ} :
    checkedAdd a b = some c ↔ c = a + b ∧ i64Min ≤ c ∧ c ≤ i64Max := by
  unfold checkedAdd
  split <;> simp <;> omega

theorem usizeToI64_eq_ok_iff {value : ℕ} {workflow field : String} {i : ℤ} :
    usizeToI64 value workflow field = .ok i ↔ i = value ∧ i ≤ i64Max := by
  unfold usizeToI64
  split <;> simp <;> omega

/-! ### Cells -/

/-- A value of a column of string lists. -/
inductive StringListCell where
  | null
  | string (value : String)
  | list (values : List String)
deriving DecidableEq, Repr

/-- `any_value_to_string_list`. -/
def StringListCell.toStringList : StringListCell → List String
  | .null => []
  | .string value => [value]
  | .list values => values

end GraphLoom
