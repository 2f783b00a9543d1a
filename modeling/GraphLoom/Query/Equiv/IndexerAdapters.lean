import GraphLoom.Query.IndexerAdapters

/-!
# Reading the columns of rows

A reader gives what a column has of a row when the column is of a type that it takes.
-/

namespace GraphLoom.Query

open Foundation

variable {ρ : Type}

/-- The frame has a column of these rows. -/
structure HasColumn (frame : DataFrame) (rows : List ρ) (name : String) (dtype : DataType)
    (value : ρ → AnyValue) : Prop where
  column : frame.column name = some ⟨dtype, rows.map value⟩

section Cells

variable {frame : DataFrame} {rows : List ρ} {name : String} {dtype : DataType}
  {value : ρ → AnyValue} {row : ℕ} {record : ρ} {method : SearchMethod} {table expected : String}

section

variable (h : HasColumn frame rows name dtype value)
  (htype : columnTypeMatches dtype expected = true)
include h htype

theorem HasColumn.requiredColumn :
    requiredColumn frame ⟨method, table, name, expected, row⟩ = .ok ⟨dtype, rows.map value⟩ := by
  unfold Query.requiredColumn
  dsimp only
  rw [h.column]
  dsimp only
  rw [validateColumnType, if_pos htype]
  rfl

theorem HasColumn.optionalColumn : optionalColumn frame ⟨method, table, name, expected, row⟩ =
      .ok (some ⟨dtype, rows.map value⟩) := by
  unfold Query.optionalColumn
  dsimp only
  rw [h.column]
  dsimp only
  split_ifs
  · rfl
  · rw [validateColumnType, if_pos htype]
    rfl

theorem HasColumn.requiredValue (hrow : rows[row]? = some record) :
    requiredValue frame ⟨method, table, name, expected, row⟩ =
      .ok (value record, dtype.display) := by
  rw [Query.requiredValue, h.requiredColumn htype]
  show Except.ok (Column.get _ _, _) = _
  rw [Column.get_map hrow]

theorem HasColumn.optionalValue (hrow : rows[row]? = some record) :
    optionalValue frame ⟨method, table, name, expected, row⟩ =
      .ok (some (value record, dtype.display)) := by
  rw [Query.optionalValue, h.optionalColumn htype]
  show Except.ok (some (Column.get _ _, _)) = _
  rw [Column.get_map hrow]

end

/-! ### Readers -/

section Strings

variable {text : String} {texts : List String}

theorem HasColumn.requiredString (h : HasColumn frame rows name .string value)
    (hrow : rows[row]? = some record) (hvalue : value record = .string text) :
    requiredString frame row name method table = .ok text := by
  unfold Query.requiredString
  dsimp only
  rw [h.requiredValue (by decide) hrow, hvalue]
  rfl

theorem HasColumn.optionalString (h : HasColumn frame rows name .string value)
    (hrow : rows[row]? = some record) (hvalue : value record = .string text) :
    optionalString frame row name method table = .ok (some text) := by
  unfold Query.optionalString
  dsimp only
  rw [h.optionalValue (by decide) hrow, hvalue]
  rfl

/-- The items of a list of texts. -/
theorem stringListValue_map {cell : CellAt} {actual : String} :
    stringListValue cell actual (.list (texts.map .string)) = .ok texts := by
  rw [stringListValue, mapM_eq_ok_iff, List.forall₂_map_left_iff, List.forall₂_same]
  exact fun text _ => rfl

theorem HasColumn.requiredStringList (h : HasColumn frame rows name dtype value)
    (htype : columnTypeMatches dtype "list<string>" = true) (hrow : rows[row]? = some record)
    (hvalue : value record = .list (texts.map .string)) :
    requiredStringList frame row name method table = .ok texts := by
  unfold Query.requiredStringList
  dsimp only
  rw [h.requiredValue htype hrow, hvalue]
  exact stringListValue_map

theorem HasColumn.optionalStringList (h : HasColumn frame rows name dtype value)
    (htype : columnTypeMatches dtype "nullable string or list<string>" = true)
    (hrow : rows[row]? = some record) (hvalue : value record = .list (texts.map .string)) :
    optionalStringList frame row name method table = .ok texts := by
  unfold Query.optionalStringList
  dsimp only
  rw [h.optionalValue htype hrow, hvalue]
  exact stringListValue_map

end Strings

section Integers

variable {number : ℤ} {numbers : List ℤ}

section

variable (h : HasColumn frame rows name .int64 value) (hrow : rows[row]? = some record)
  (hvalue : value record = .int64 number)
include h hrow hvalue

theorem HasColumn.requiredI64 : requiredI64 frame row name method table = .ok number := by
  unfold Query.requiredI64
  dsimp only
  rw [h.requiredValue (by decide) hrow, hvalue]
  rfl

theorem HasColumn.optionalI64 : optionalI64 frame row name method table = .ok (some number) := by
  unfold Query.optionalI64
  dsimp only
  rw [h.optionalValue (by decide) hrow, hvalue]
  rfl

theorem HasColumn.optionalStringish :
    optionalStringish frame row name method table = .ok (some (toString number)) := by
  unfold Query.optionalStringish
  dsimp only
  rw [h.optionalValue (by decide) hrow, hvalue]
  rfl

theorem HasColumn.optionalCommunityId :
    optionalCommunityId frame row name method table = .ok (some number) := by
  unfold Query.optionalCommunityId
  dsimp only
  rw [h.optionalValue (by decide) hrow, hvalue]
  rfl

theorem HasColumn.requiredCommunityId :
    requiredCommunityId frame row name method table = .ok number := by
  rw [Query.requiredCommunityId, h.optionalCommunityId hrow hvalue]
  rfl

end

theorem HasColumn.requiredI64List (h : HasColumn frame rows name (.list .int64) value)
    (hrow : rows[row]? = some record) (hvalue : value record = .list (numbers.map .int64)) :
    requiredI64List frame row name method table = .ok numbers := by
  unfold Query.requiredI64List
  dsimp only
  rw [h.requiredValue (by decide) hrow, hvalue]
  show (numbers.map AnyValue.int64).mapM _ = _
  rw [mapM_eq_ok_iff, List.forall₂_map_left_iff, List.forall₂_same]
  exact fun number _ => rfl

end Integers

theorem HasColumn.optionalF64 {asF64 : ℤ → F64} {number : F64}
    (h : HasColumn frame rows name .float64 value) (hrow : rows[row]? = some record)
    (hvalue : value record = .float64 number) (hfinite : number.isFinite = true) :
    optionalF64 frame row name method table asF64 = .ok (some number) := by
  unfold Query.optionalF64
  dsimp only
  rw [h.optionalValue (by decide) hrow, hvalue]
  exact if_pos hfinite

end Cells

/-! ### Schemas -/

/-- The frame has columns of types that the schema takes. -/
def HasColumns (frame : DataFrame) (schema : List (String × String)) : Prop :=
  ∀ field ∈ schema, ∃ column, frame.column field.1 = some column ∧
    columnTypeMatches column.dtype field.2 = true

theorem validateSchema_ok {frame : DataFrame} {required optional : List (String × String)}
    {method : SearchMethod} {table : String} (hrequired : HasColumns frame required)
    (hoptional : HasColumns frame optional) :
    validateSchema frame method table required optional = .ok () := by
  unfold validateSchema
  have hreq : required.forM (fun field => do
      let _ ← requiredColumn frame ⟨method, table, field.1, field.2, 0⟩) =
        (.ok () : Except QueryError Unit) := by
    refine forM_eq_ok_of_forall fun field hfield => ?_
    obtain ⟨column, hcolumn, htype⟩ := hrequired field hfield
    show (do let _ ← requiredColumn frame ⟨method, table, field.1, field.2, 0⟩) = _
    unfold requiredColumn
    dsimp only
    rw [hcolumn]
    dsimp only
    rw [validateColumnType, if_pos htype]
    rfl
  have hopt : optional.forM (fun field => do
      let _ ← optionalColumn frame ⟨method, table, field.1, field.2, 0⟩) =
        (.ok () : Except QueryError Unit) := by
    refine forM_eq_ok_of_forall fun field hfield => ?_
    obtain ⟨column, hcolumn, htype⟩ := hoptional field hfield
    show (do let _ ← optionalColumn frame ⟨method, table, field.1, field.2, 0⟩) = _
    unfold optionalColumn
    dsimp only
    rw [hcolumn]
    dsimp only
    split_ifs
    · rfl
    · rw [validateColumnType, if_pos htype]
      rfl
  show (required.forM (fun field => do
      let _ ← requiredColumn frame ⟨method, table, field.1, field.2, 0⟩) >>= fun _ =>
    optional.forM (fun field => do
      let _ ← optionalColumn frame ⟨method, table, field.1, field.2, 0⟩)) = _
  rw [hreq]
  exact hopt

end GraphLoom.Query
