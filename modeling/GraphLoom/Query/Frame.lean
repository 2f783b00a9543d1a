import GraphLoom.Foundation.Json
import Mathlib.Data.Int.Init

/-!
# Data frames

A data frame has named columns of one type and one length.  The values of a column are null or of
its type.
-/

namespace GraphLoom.Query

open Foundation

inductive DataType where
  | null
  | int32
  | int64
  | uint32
  | uint64
  | float32
  | float64
  | string
  | list (inner : DataType)
  -- any type that no reader accepts, by its text
  | other (text : String)
deriving DecidableEq, Repr

namespace DataType

def display : DataType → String
  | null => "null"
  | int32 => "i32"
  | int64 => "i64"
  | uint32 => "u32"
  | uint64 => "u64"
  | float32 => "f32"
  | float64 => "f64"
  | string => "str"
  | list inner => "list[" ++ inner.display ++ "]"
  | other text => text

def isInteger : DataType → Bool
  | int32 | int64 | uint32 | uint64 => true
  | _ => false

def isFloat : DataType → Bool
  | float32 | float64 => true
  | _ => false

end DataType

/-- A value of a column.  A value of type `f32` is given as the `f64` that it equals. -/
inductive AnyValue where
  | null
  | int32 (value : ℤ)
  | int64 (value : ℤ)
  | uint32 (value : ℤ)
  | uint64 (value : ℤ)
  | float32 (value : F64)
  | float64 (value : F64)
  | string (value : String)
  | list (values : List AnyValue)
  | other

structure Column where
  dtype : DataType
  values : List AnyValue

structure DataFrame where
  height : ℕ
  columns : List (String × Column)
  full : ∀ column ∈ columns, column.2.values.length = height

namespace DataFrame

def column (frame : DataFrame) (name : String) : Option Column := frame.columns.lookup name

end DataFrame

/-- `Column::get`; the rows that are read are below the height. -/
def Column.get (column : Column) (row : ℕ) : AnyValue := column.values.getD row .null

/-! ### Frames of rows -/

/-- How a column is made of rows of a type. -/
structure RowField (ρ : Type) where
  name : String
  dtype : DataType
  value : ρ → AnyValue

/-- The type of a column of string lists; without rows there is nothing to take the inner type
of. -/
def stringListType {ρ : Type} (rows : List ρ) : DataType :=
  .list (if rows.isEmpty then .null else .string)

/-- `df!` of the rows. -/
def DataFrame.ofRows {ρ : Type} (fields : List (RowField ρ)) (rows : List ρ) : DataFrame where
  height := rows.length
  columns := fields.map fun field => (field.name, ⟨field.dtype, rows.map field.value⟩)
  full := by
    intro column hcolumn
    obtain ⟨field, -, rfl⟩ := List.mem_map.mp hcolumn
    exact List.length_map _

section OfRows

variable {ρ : Type} {fields : List (RowField ρ)} {rows : List ρ}

/-- The column of a field. -/
theorem DataFrame.column_ofRows {field : RowField ρ} {name : String}
    (h : fields.find? (fun field => name == field.name) = some field) :
    (DataFrame.ofRows fields rows).column name = some ⟨field.dtype, rows.map field.value⟩ := by
  show (fields.map fun field : RowField ρ =>
    (field.name, Column.mk field.dtype (rows.map field.value))).lookup name = _
  induction fields with
  | nil => cases h
  | cons other fields ih =>
    rw [List.map_cons, List.lookup_cons]
    rw [List.find?_cons] at h
    split at h
    · obtain rfl := Option.some.inj h
      rfl
    · exact ih h

theorem Column.get_map {dtype : DataType} {value : ρ → AnyValue} {row : ℕ} {record : ρ}
    (h : rows[row]? = some record) : Column.get ⟨dtype, rows.map value⟩ row = value record := by
  rw [Column.get, List.getD_eq_getElem?_getD, List.getElem?_map, h]
  rfl

end OfRows

end GraphLoom.Query
