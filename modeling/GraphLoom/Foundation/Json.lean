import Mathlib.Data.Nat.Notation

/-!
# JSON values

JSON values as a serializer holds them: integers of 64 bits apart from floats, and objects as maps,
which hold their entries in the order of the keys.
-/

namespace GraphLoom.Foundation

/-- The bits of a 64-bit float. -/
structure F64 where
  bits : BitVec 64
deriving DecidableEq, Repr

namespace F64

def isFinite (x : F64) : Bool := x.bits.extractLsb' 52 11 != 0x7FF#11

def isZero (x : F64) : Bool := x.bits.extractLsb' 0 63 == 0#63

end F64

namespace Json

inductive Number where
  | unsigned (value : UInt64)
  | signed (value : Int64)
  | float (value : F64)
deriving DecidableEq, Repr

inductive Value where
  | null
  | bool (value : Bool)
  | number (value : Number)
  | string (value : String)
  | array (values : List Value)
  | object (entries : List (String × Value))

/-- The entries of an object, in the order of their keys. -/
abbrev Map := List (String × Value)

namespace Map

/-- Puts an entry in its place, over one that has its key. -/
def insert (key : String) (value : Value) : Map → Map
  | [] => [(key, value)]
  | (other, old) :: rest =>
    if key = other then (key, value) :: rest
    else if key < other then (key, value) :: (other, old) :: rest
    else (other, old) :: insert key value rest

def get (map : Map) (key : String) : Option Value := List.lookup key map

def extend (map : Map) (entries : Map) : Map :=
  entries.foldl (fun map entry => insert entry.1 entry.2 map) map

/-- An entry that is made when its key has none. -/
def orInsert (key : String) (value : Value) (map : Map) : Map :=
  match map.get key with
  | none => insert key value map
  | some _ => map

/-- The map of a list of fields, without those that are left out. -/
def ofFields (fields : List (String × Option Value)) : Map :=
  fields.foldl
    (fun map field => match field.2 with
      | none => map
      | some value => insert field.1 value map) []

theorem get_cons_self (key : String) (value : Value) (rest : Map) :
    get ((key, value) :: rest) key = some value := by
  simp [get]

theorem get_cons_of_ne {key other : String} (h : key ≠ other) (value : Value) (rest : Map) :
    get ((other, value) :: rest) key = rest.get key := by
  have hbeq : (key == other) = false := by simpa using h
  rw [get, List.lookup_cons, hbeq, get]

theorem get_insert_self (key : String) (value : Value) (map : Map) :
    (insert key value map).get key = some value := by
  induction map with
  | nil => exact get_cons_self key value []
  | cons entry rest ih =>
    rw [insert]
    split
    · exact get_cons_self key value rest
    · next hne =>
      split
      · exact get_cons_self key value _
      · rw [get_cons_of_ne hne]
        exact ih

theorem get_insert_of_ne {key other : String} (h : key ≠ other) (value : Value) (map : Map) :
    (insert other value map).get key = map.get key := by
  induction map with
  | nil => exact get_cons_of_ne h value []
  | cons entry rest ih =>
    rw [insert]
    split
    · next heq => rw [get_cons_of_ne h, get_cons_of_ne (heq ▸ h)]
    · split
      · exact get_cons_of_ne h value _
      · by_cases hkey : key = entry.1
        · rw [hkey, get_cons_self, get_cons_self]
        · rw [get_cons_of_ne hkey, get_cons_of_ne hkey]
          exact ih

end Map

/-- A number as a float of 64 bits is finite; this is what a float that is none becomes. -/
def ofF64 (x : F64) : Value := if x.isFinite then .number (.float x) else .null

/-- The entry of an object; other values have none. -/
def Value.get (value : Value) (key : String) : Option Value :=
  match value with
  | .object entries => Map.get entries key
  | _ => none

/-- JSON text, as bytes of any kind, that says each value without loss. -/
class Text (β : Type) where
  toVec : Value → β
  fromSlice : β → Option Value
  fromSlice_toVec : ∀ value, fromSlice (toVec value) = some value

/-- A type whose values are said by JSON values, without loss. -/
class Serde (α : Type) where
  toValue : α → Value
  fromValue : Value → Option α
  fromValue_toValue : ∀ a, fromValue (toValue a) = some a

attribute [simp] Text.fromSlice_toVec Serde.fromValue_toValue

end Json

end GraphLoom.Foundation
