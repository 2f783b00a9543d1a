import GraphLoom.Foundation.Fallible
import GraphLoom.TextUnits.Final

/-!
# Text units and what refers to them

What the tables hold is said apart from how they are read: a row of entities, relationships or
covariates is a `Reference` with the text units it names.  Each reader returns the rows of its table
(`buildMultiRefMap_eq_ok_iff`, `buildCovariateMap_eq_ok_iff`), and the map of the references has, at
a text unit, each id as often as its row names it (`getD_referenceMap`).

A text unit has exactly the references to it (`BackReferences`), which is
`createFinalTextUnits_backReferences`.
-/

namespace GraphLoom.TextUnits

open Foundation Query
open Std (ExtTreeMap)

/-! ### References -/

/-- A row with an id and the text units it names. -/
structure Reference where
  id : String
  textUnitIds : List String
deriving DecidableEq, Repr

/-- The ids of the rows, in their order, each as often as its row names the text unit. -/
def referencesTo (references : List Reference) (textUnitId : String) : List String :=
  references.flatMap fun reference =>
    List.replicate (reference.textUnitIds.count textUnitId) reference.id

/-- The ids are the references of the rows to the text unit. -/
structure BackReferences (references : List Reference) (textUnitId : String) (ids : List String) :
    Prop where
  ordered : ids = referencesTo references textUnitId
  inverse : (references.map Reference.id).Nodup → ∀ reference ∈ references,
    ids.count reference.id = reference.textUnitIds.count textUnitId
  known : ∀ id ∈ ids, ∃ reference ∈ references,
    reference.id = id ∧ textUnitId ∈ reference.textUnitIds

section References

variable {references : List Reference} {reference : Reference} {textUnitId : String}

theorem mem_referencesTo {id : String} :
    id ∈ referencesTo references textUnitId ↔
      ∃ reference ∈ references, reference.id = id ∧ textUnitId ∈ reference.textUnitIds := by
  unfold referencesTo
  rw [List.mem_flatMap]
  constructor
  · rintro ⟨reference, hmem, hid⟩
    obtain ⟨hcount, rfl⟩ := List.mem_replicate.mp hid
    exact ⟨reference, hmem, rfl, List.count_pos_iff.mp (Nat.pos_of_ne_zero hcount)⟩
  · rintro ⟨reference, hmem, rfl, hunit⟩
    exact ⟨reference, hmem,
      List.mem_replicate.mpr ⟨(List.count_pos_iff.mpr hunit).ne', rfl⟩⟩

/-- When the ids are distinct, the two columns are inverse to each other. -/
theorem count_referencesTo (hunique : (references.map Reference.id).Nodup)
    (h : reference ∈ references) :
    (referencesTo references textUnitId).count reference.id =
      reference.textUnitIds.count textUnitId := by
  induction references with
  | nil => exact absurd h List.not_mem_nil
  | cons other references ih =>
    obtain ⟨hnew, hrest⟩ := List.nodup_cons.mp hunique
    show (List.replicate _ other.id ++ referencesTo references textUnitId).count _ = _
    rw [List.count_append, List.count_replicate]
    rcases List.mem_cons.mp h with rfl | hmem
    · have hnone : (referencesTo references textUnitId).count reference.id = 0 := by
        apply List.count_eq_zero_of_not_mem
        intro hid
        obtain ⟨found, hfound, heq, -⟩ := mem_referencesTo.mp hid
        exact hnew (heq ▸ List.mem_map_of_mem hfound)
      rw [if_pos (beq_self_eq_true _), hnone, Nat.add_zero]
    · have hne : (other.id == reference.id) = false := by
        apply beq_eq_false_iff_ne.mpr
        intro heq
        exact hnew (heq ▸ List.mem_map_of_mem hmem)
      rw [hne, if_neg Bool.false_ne_true, Nat.zero_add, ih hrest hmem]

theorem backReferences_referencesTo (references : List Reference) (textUnitId : String) :
    BackReferences references textUnitId (referencesTo references textUnitId) where
  ordered := rfl
  inverse hunique _ hmem := count_referencesTo hunique hmem
  known _ hid := mem_referencesTo.mp hid

/-! ### The map of the references -/

def addReference (mapping : ReferenceMap) (reference : Reference) : ReferenceMap :=
  reference.textUnitIds.foldl (fun mapping textUnitId => pushAt mapping textUnitId reference.id)
    mapping

def referenceMap (references : List Reference) : ReferenceMap := references.foldl addReference ∅

theorem getD_addReference (mapping : ReferenceMap) (reference : Reference) (textUnitId : String) :
    (addReference mapping reference)[textUnitId]?.getD [] = mapping[textUnitId]?.getD [] ++
      List.replicate (reference.textUnitIds.count textUnitId) reference.id := by
  unfold addReference
  induction reference.textUnitIds generalizing mapping with
  | nil => exact (List.append_nil _).symm
  | cons unit units ih =>
    rw [List.foldl_cons, ih, getD_pushAt, List.append_assoc, List.count_cons]
    by_cases hunit : unit = textUnitId
    · rw [if_pos hunit, if_pos (beq_iff_eq.mpr hunit), Nat.add_comm, List.replicate_add]
      rfl
    · rw [if_neg hunit, if_neg fun h => hunit (beq_iff_eq.mp h), List.nil_append, Nat.add_zero]

/-- **At a text unit, the map has the references to it.** -/
theorem getD_referenceMap (references : List Reference) (textUnitId : String) :
    (referenceMap references)[textUnitId]?.getD [] = referencesTo references textUnitId := by
  unfold referenceMap
  induction references using List.reverseRecOn with
  | nil => rfl
  | append_singleton references reference ih =>
    rw [List.foldl_concat, getD_addReference, ih]
    unfold referencesTo
    rw [List.flatMap_append, List.flatMap_singleton]

end References

/-! ### What the tables hold -/

/-- A cell of a column of string lists has these strings.  A single string is a list of one. -/
inductive CellStrings (dtype : DataType) : AnyValue → List String → Prop where
  | null : CellStrings dtype .null []
  | string (value : String) : CellStrings dtype (.string value) [value]
  | list (h : dtype = .list .string) (values : List AnyValue) :
    CellStrings dtype (.list values) (values.filterMap asString)

/-- A column of strings, by its name. -/
def StringColumn (frame : DataFrame) (name : String) (column : Query.Column) : Prop :=
  frame.column name = some column ∧ column.dtype = .string

structure ReferenceRow (ids textUnitIds : Query.Column) (row : ℕ) (reference : Reference) :
    Prop where
  id : ids.get row = .string reference.id
  textUnitIds : CellStrings textUnitIds.dtype (textUnitIds.get row) reference.textUnitIds

/-- The rows of a table of entities or relationships. -/
def ReferenceRows (frame : DataFrame) (references : List Reference) : Prop :=
  ∃ ids textUnitIds, StringColumn frame "id" ids ∧
    frame.column "text_unit_ids" = some textUnitIds ∧
    List.Forall₂ (ReferenceRow ids textUnitIds) (List.range frame.height) references

/-- A covariate names one text unit. -/
def CovariateRow (ids textUnitIds : Query.Column) (row : ℕ) (reference : Reference) : Prop :=
  ∃ textUnitId, ids.get row = .string reference.id ∧
    textUnitIds.get row = .string textUnitId ∧ reference.textUnitIds = [textUnitId]

def CovariateRows (frame : DataFrame) (references : List Reference) : Prop :=
  ∃ ids textUnitIds, StringColumn frame "id" ids ∧ StringColumn frame "text_unit_id" textUnitIds ∧
    List.Forall₂ (CovariateRow ids textUnitIds) (List.range frame.height) references

/-- A value of an integer column. -/
inductive CellInteger : AnyValue → ℤ → Prop where
  | int64 (value : ℤ) : CellInteger (.int64 value) value
  | int32 (value : ℤ) : CellInteger (.int32 value) value
  | uint32 (value : ℤ) : CellInteger (.uint32 value) value

structure TextUnitOfRow (frame : DataFrame) (ids texts documentIds : Query.Column) (row : ℕ)
    (textUnit : TextUnitInput) : Prop where
  id : ids.get row = .string textUnit.id
  text : texts.get row = .string textUnit.text
  nTokens : ∃ column, frame.column "n_tokens" = some column ∧
    CellInteger (column.get row) textUnit.nTokens
  documentId : documentIds.get row = .string textUnit.documentId

def TextUnitRows (frame : DataFrame) (textUnits : List TextUnitInput) : Prop :=
  ∃ ids texts documentIds, StringColumn frame "id" ids ∧ StringColumn frame "text" texts ∧
    StringColumn frame "document_id" documentIds ∧
    List.Forall₂ (TextUnitOfRow frame ids texts documentIds) (List.range frame.height) textUnits

/-! ### The readers -/

theorem okOrElse_eq_ok_iff {α : Type} {error : WorkflowError} {o : Option α} {value : α} :
    okOrElse error o = .ok value ↔ o = some value := by
  cases o <;> simp [okOrElse]

variable {frame : DataFrame}

theorem strColumn_eq_ok_iff {name : String} {column : Query.Column} :
    strColumn frame name = .ok column ↔ StringColumn frame name column := by
  unfold strColumn StringColumn columnOf
  rw [bind_eq_ok]
  constructor
  · rintro ⟨found, hfound, h⟩
    rw [okOrElse_eq_ok_iff] at hfound
    split_ifs at h with hdtype
    obtain rfl := Except.ok.inj h
    exact ⟨hfound, hdtype⟩
  · rintro ⟨hcolumn, hdtype⟩
    refine ⟨column, okOrElse_eq_ok_iff.mpr hcolumn, ?_⟩
    rw [if_pos hdtype]
    rfl

variable {value : AnyValue}

theorem asString_eq_some_iff {text : String} :
    asString value = some text ↔ value = .string text := by
  cases value <;> simp [asString]

theorem stringValue_eq_ok_iff {column text : String} :
    stringValue (asString value) column = .ok text ↔ value = .string text := by
  unfold stringValue
  rw [okOrElse_eq_ok_iff, asString_eq_some_iff]

theorem anyValueToStringList_eq_ok_iff {dtype : DataType} {strings : List String} :
    anyValueToStringList dtype value = .ok strings ↔ CellStrings dtype value strings := by
  constructor
  · intro h
    unfold anyValueToStringList at h
    split at h
    · split at h
      · obtain rfl := Except.ok.inj h
        exact .list rfl _
      · cases h
      · cases h
    · obtain rfl := Except.ok.inj h
      exact .null
    · obtain rfl := Except.ok.inj h
      exact .string _
    · cases h
  · intro h
    cases h with
    | null => rfl
    | string value => rfl
    | list h values =>
      subst h
      rfl

theorem i64ColumnValue_eq_ok_iff {row : ℕ} {name : String} {value : ℤ} :
    i64ColumnValue frame row name = .ok value ↔
      ∃ column, frame.column name = some column ∧ CellInteger (column.get row) value := by
  unfold i64ColumnValue columnOf
  rw [bind_eq_ok]
  apply exists_congr
  intro column
  rw [okOrElse_eq_ok_iff]
  apply and_congr_right
  intro _
  constructor
  · intro h
    split at h
    · next heq =>
      obtain rfl := Except.ok.inj h
      exact heq ▸ .int64 _
    · next heq =>
      obtain rfl := Except.ok.inj h
      exact heq ▸ .int32 _
    · next heq =>
      obtain rfl := Except.ok.inj h
      exact heq ▸ .uint32 _
    · cases h
  · intro h
    generalize column.get row = cell at h
    cases h <;> rfl

theorem addReferences_eq_ok_iff (ids textUnitIds : Query.Column) (mapping : ReferenceMap) (row : ℕ)
    (mapping' : ReferenceMap) :
    addReferences ids textUnitIds mapping row = .ok mapping' ↔
      ∃ reference, ReferenceRow ids textUnitIds row reference ∧
        addReference mapping reference = mapping' := by
  unfold addReferences
  constructor
  · intro h
    obtain ⟨id, hid, h⟩ := bind_eq_ok.mp h
    obtain ⟨units, hunits, h⟩ := bind_eq_ok.mp h
    exact ⟨⟨id, units⟩, ⟨stringValue_eq_ok_iff.mp hid, anyValueToStringList_eq_ok_iff.mp hunits⟩,
      Except.ok.inj h⟩
  · rintro ⟨reference, hrow, rfl⟩
    rw [stringValue_eq_ok_iff.mpr hrow.id, anyValueToStringList_eq_ok_iff.mpr hrow.textUnitIds]
    rfl

theorem addCovariate_eq_ok_iff (ids textUnitIds : Query.Column) (mapping : ReferenceMap) (row : ℕ)
    (mapping' : ReferenceMap) :
    addCovariate ids textUnitIds mapping row = .ok mapping' ↔
      ∃ reference, CovariateRow ids textUnitIds row reference ∧
        addReference mapping reference = mapping' := by
  unfold addCovariate
  constructor
  · intro h
    obtain ⟨id, hid, h⟩ := bind_eq_ok.mp h
    obtain ⟨unit, hunit, h⟩ := bind_eq_ok.mp h
    exact ⟨⟨id, [unit]⟩, ⟨unit, stringValue_eq_ok_iff.mp hid, stringValue_eq_ok_iff.mp hunit, rfl⟩,
      Except.ok.inj h⟩
  · rintro ⟨⟨id, units⟩, ⟨unit, hid, hunit, rfl⟩, rfl⟩
    rw [stringValue_eq_ok_iff.mpr hid, stringValue_eq_ok_iff.mpr hunit]
    rfl

variable {mapping : ReferenceMap}

/-- **The map of a table is that of its rows.** -/
theorem buildMultiRefMap_eq_ok_iff {kind : String} : buildMultiRefMap frame kind = .ok mapping ↔
      ∃ references, ReferenceRows frame references ∧ referenceMap references = mapping := by
  unfold buildMultiRefMap
  constructor
  · intro h
    obtain ⟨ids, hids, h⟩ := bind_eq_ok.mp h
    obtain ⟨textUnitIds, hunits, h⟩ := bind_eq_ok.mp h
    obtain ⟨references, hrows, hfold⟩ :=
      (foldlM_eq_ok_iff (addReferences_eq_ok_iff ids textUnitIds)).mp h
    exact ⟨references, ⟨ids, textUnitIds, strColumn_eq_ok_iff.mp hids,
      okOrElse_eq_ok_iff.mp hunits, hrows⟩, hfold⟩
  · rintro ⟨references, ⟨ids, textUnitIds, hids, hunits, hrows⟩, hfold⟩
    rw [strColumn_eq_ok_iff.mpr hids, okOrElse_eq_ok_iff.mpr hunits]
    exact (foldlM_eq_ok_iff (addReferences_eq_ok_iff ids textUnitIds)).mpr
      ⟨references, hrows, hfold⟩

theorem buildCovariateMap_eq_ok_iff : buildCovariateMap frame = .ok mapping ↔
      ∃ references, CovariateRows frame references ∧ referenceMap references = mapping := by
  unfold buildCovariateMap
  constructor
  · intro h
    obtain ⟨ids, hids, h⟩ := bind_eq_ok.mp h
    obtain ⟨textUnitIds, hunits, h⟩ := bind_eq_ok.mp h
    obtain ⟨references, hrows, hfold⟩ :=
      (foldlM_eq_ok_iff (addCovariate_eq_ok_iff ids textUnitIds)).mp h
    exact ⟨references, ⟨ids, textUnitIds, strColumn_eq_ok_iff.mp hids,
      strColumn_eq_ok_iff.mp hunits, hrows⟩, hfold⟩
  · rintro ⟨references, ⟨ids, textUnitIds, hids, hunits, hrows⟩, hfold⟩
    rw [strColumn_eq_ok_iff.mpr hids, strColumn_eq_ok_iff.mpr hunits]
    exact (foldlM_eq_ok_iff (addCovariate_eq_ok_iff ids textUnitIds)).mpr
      ⟨references, hrows, hfold⟩

theorem readTextUnit_eq_ok_iff {ids texts documentIds : Query.Column} {row : ℕ}
    {textUnit : TextUnitInput} :
    readTextUnit frame ids texts documentIds row = .ok textUnit ↔
      TextUnitOfRow frame ids texts documentIds row textUnit := by
  unfold readTextUnit
  constructor
  · intro h
    obtain ⟨id, hid, h⟩ := bind_eq_ok.mp h
    obtain ⟨text, htext, h⟩ := bind_eq_ok.mp h
    obtain ⟨nTokens, htokens, h⟩ := bind_eq_ok.mp h
    obtain ⟨documentId, hdocument, h⟩ := bind_eq_ok.mp h
    obtain rfl := Except.ok.inj h
    exact ⟨stringValue_eq_ok_iff.mp hid, stringValue_eq_ok_iff.mp htext,
      i64ColumnValue_eq_ok_iff.mp htokens, stringValue_eq_ok_iff.mp hdocument⟩
  · intro h
    rw [stringValue_eq_ok_iff.mpr h.id, stringValue_eq_ok_iff.mpr h.text,
      i64ColumnValue_eq_ok_iff.mpr h.nTokens, stringValue_eq_ok_iff.mpr h.documentId]
    rfl

theorem readTextUnits_eq_ok_iff {textUnits : List TextUnitInput} :
    readTextUnits frame = .ok textUnits ↔ TextUnitRows frame textUnits := by
  unfold readTextUnits
  constructor
  · intro h
    obtain ⟨ids, hids, h⟩ := bind_eq_ok.mp h
    obtain ⟨texts, htexts, h⟩ := bind_eq_ok.mp h
    obtain ⟨documentIds, hdocuments, h⟩ := bind_eq_ok.mp h
    refine ⟨ids, texts, documentIds, strColumn_eq_ok_iff.mp hids, strColumn_eq_ok_iff.mp htexts,
      strColumn_eq_ok_iff.mp hdocuments, ?_⟩
    exact (mapM_eq_ok_iff.mp h).imp fun _ _ => readTextUnit_eq_ok_iff.mp
  · rintro ⟨ids, texts, documentIds, hids, htexts, hdocuments, hrows⟩
    rw [strColumn_eq_ok_iff.mpr hids, strColumn_eq_ok_iff.mpr htexts,
      strColumn_eq_ok_iff.mpr hdocuments]
    exact mapM_eq_ok_iff.mpr (hrows.imp fun _ _ => readTextUnit_eq_ok_iff.mpr)

/-! ### The workflow -/

/-- The rows of the tables of an index. -/
structure TableRows where
  textUnits : List TextUnitInput
  entities : List Reference
  relationships : List Reference
  covariates : List Reference

/-- The tables have these rows.  Covariates are rows of the index when claims are extracted and
there is a table of them, and otherwise there are none. -/
structure TablesHold (extractClaims : Bool) (tables : OutputTables) (rows : TableRows) : Prop where
  textUnits : ∃ frame, tables.textUnits = some frame ∧ TextUnitRows frame rows.textUnits
  entities : ∃ frame, tables.entities = some frame ∧ ReferenceRows frame rows.entities
  relationships : ∃ frame, tables.relationships = some frame ∧
    ReferenceRows frame rows.relationships
  covariates : ∀ frame, extractClaims = true → tables.covariates = some frame →
    CovariateRows frame rows.covariates
  noCovariates : extractClaims = false ∨ tables.covariates = none → rows.covariates = []

/-- The final row of a text unit and its index. -/
structure FinalRow (rows : TableRows) (textUnit : TextUnitInput × ℕ) (row : TextUnitRow) :
    Prop where
  id : row.id = textUnit.1.id
  humanReadableId : row.humanReadableId = textUnit.2
  text : row.text = textUnit.1.text
  nTokens : row.nTokens = textUnit.1.nTokens
  documentId : row.documentId = textUnit.1.documentId
  entityIds : BackReferences rows.entities row.id row.entityIds
  relationshipIds : BackReferences rows.relationships row.id row.relationshipIds
  covariateIds : BackReferences rows.covariates row.id row.covariateIds

/-- What the workflow leaves when the tables have these rows: one final row for each text unit, in
their order. -/
structure FinalTables (tables : OutputTables) (rows : TableRows) (final : OutputTables)
    (output : IndexWorkflowOutput) : Prop where
  finalRows : ∃ finalRows, List.Forall₂ (FinalRow rows) rows.textUnits.zipIdx finalRows ∧
    final = { tables with textUnits := some (textUnitsDataframe finalRows) } ∧
    output.result = (finalRows.take 5).map TextUnitRow.toValue
  stop : output.stop = false
  inputRows : output.inputRows = rows.textUnits.length
  outputRows : output.outputRows = rows.textUnits.length

theorem covariateMapOf_eq_ok_iff {extractClaims : Bool} {table : Option DataFrame} :
    covariateMapOf extractClaims table = .ok mapping ↔
      ∃ references, (∀ frame, extractClaims = true → table = some frame →
        CovariateRows frame references) ∧
        (extractClaims = false ∨ table = none → references = []) ∧
        referenceMap references = mapping := by
  unfold covariateMapOf
  cases extractClaims with
  | false =>
    constructor
    · intro h
      exact ⟨[], fun _ h => (Bool.false_ne_true h).elim, fun _ => rfl, Except.ok.inj h⟩
    · rintro ⟨references, -, hnone, rfl⟩
      rw [hnone (.inl rfl)]
      rfl
  | true =>
    cases table with
    | none =>
      constructor
      · intro h
        exact ⟨[], fun _ _ h => absurd h (Option.some_ne_none _).symm, fun _ => rfl,
          Except.ok.inj h⟩
      · rintro ⟨references, -, hnone, rfl⟩
        rw [hnone (.inr rfl)]
        rfl
    | some frame =>
      show buildCovariateMap frame = _ ↔ _
      rw [buildCovariateMap_eq_ok_iff]
      constructor
      · rintro ⟨references, hrows, hmapping⟩
        refine ⟨references, ?_, ?_, hmapping⟩
        · intro other _ h
          obtain rfl := Option.some.inj h
          exact hrows
        · rintro (h | h)
          · cases h
          · cases h
      · rintro ⟨references, hrows, -, hmapping⟩
        exact ⟨references, hrows frame rfl rfl, hmapping⟩

/-- The final row of a text unit and its index, as the tables have it. -/
def finalRow (rows : TableRows) (textUnit : TextUnitInput × ℕ) : TextUnitRow where
  id := textUnit.1.id
  humanReadableId := textUnit.2
  text := textUnit.1.text
  nTokens := textUnit.1.nTokens
  documentId := textUnit.1.documentId
  entityIds := referencesTo rows.entities textUnit.1.id
  relationshipIds := referencesTo rows.relationships textUnit.1.id
  covariateIds := referencesTo rows.covariates textUnit.1.id

theorem finalRow_final (rows : TableRows) (textUnit : TextUnitInput × ℕ) :
    FinalRow rows textUnit (finalRow rows textUnit) where
  id := rfl
  humanReadableId := rfl
  text := rfl
  nTokens := rfl
  documentId := rfl
  entityIds := backReferences_referencesTo _ _
  relationshipIds := backReferences_referencesTo _ _
  covariateIds := backReferences_referencesTo _ _

theorem finalTextUnit_eq_ok_iff {rows : TableRows} {textUnit : TextUnitInput × ℕ}
    {row : TextUnitRow} :
    finalTextUnit (referenceMap rows.entities) (referenceMap rows.relationships)
        (referenceMap rows.covariates) textUnit = .ok row ↔
      row = finalRow rows textUnit ∧ (textUnit.2 : ℤ) ≤ i64Max := by
  unfold finalTextUnit clonedVecOrEmpty usizeToI64
  rw [getD_referenceMap, getD_referenceMap, getD_referenceMap]
  by_cases hindex : (textUnit.2 : ℤ) ≤ i64Max
  · rw [if_pos hindex]
    constructor
    · intro h
      exact ⟨(Except.ok.inj h).symm, hindex⟩
    · rintro ⟨rfl, -⟩
      rfl
  · rw [if_neg hindex]
    constructor
    · intro h
      cases h
    · rintro ⟨-, h⟩
      exact absurd h hindex

/-- **The final rows are those of the tables**, as long as their numbers fit. -/
theorem finalTextUnits_eq_ok_iff {extractClaims : Bool} {tables : OutputTables}
    {finalRows : List TextUnitRow} :
    finalTextUnits extractClaims tables = .ok finalRows ↔
      ∃ rows, TablesHold extractClaims tables rows ∧ (rows.textUnits.length : ℤ) ≤ i64Max + 1 ∧
        rows.textUnits.zipIdx.map (finalRow rows) = finalRows := by
  unfold finalTextUnits readDataframe
  constructor
  · intro h
    obtain ⟨textUnitsFrame, htextUnits, h⟩ := bind_eq_ok.mp h
    obtain ⟨textUnits, hunits, h⟩ := bind_eq_ok.mp h
    obtain ⟨entitiesFrame, hentities, h⟩ := bind_eq_ok.mp h
    obtain ⟨entityMap, hentityMap, h⟩ := bind_eq_ok.mp h
    obtain ⟨relationshipsFrame, hrelationships, h⟩ := bind_eq_ok.mp h
    obtain ⟨relationshipMap, hrelationshipMap, h⟩ := bind_eq_ok.mp h
    obtain ⟨covariateMap, hcovariateMap, h⟩ := bind_eq_ok.mp h
    obtain ⟨entities, hentityRows, rfl⟩ := buildMultiRefMap_eq_ok_iff.mp hentityMap
    obtain ⟨relationships, hrelationshipRows, rfl⟩ :=
      buildMultiRefMap_eq_ok_iff.mp hrelationshipMap
    obtain ⟨covariates, hcovariateRows, hnone, rfl⟩ := covariateMapOf_eq_ok_iff.mp hcovariateMap
    have hrows : List.Forall₂ (fun textUnit row =>
        row = finalRow ⟨textUnits, entities, relationships, covariates⟩ textUnit ∧
          (textUnit.2 : ℤ) ≤ i64Max) textUnits.zipIdx finalRows :=
      (mapM_eq_ok_iff.mp h).imp fun _ _ hrow => finalTextUnit_eq_ok_iff.mp hrow
    refine ⟨⟨textUnits, entities, relationships, covariates⟩, ?_, ?_, ?_⟩
    · exact {
        textUnits := ⟨_, okOrElse_eq_ok_iff.mp htextUnits, readTextUnits_eq_ok_iff.mp hunits⟩
        entities := ⟨_, okOrElse_eq_ok_iff.mp hentities, hentityRows⟩
        relationships := ⟨_, okOrElse_eq_ok_iff.mp hrelationships, hrelationshipRows⟩
        covariates := hcovariateRows
        noCovariates := hnone }
    · -- the last index is the greatest
      show (textUnits.length : ℤ) ≤ i64Max + 1
      by_contra hlength
      have hpos : textUnits.length - 1 < textUnits.length := by
        unfold i64Max at hlength
        omega
      have hlast : (textUnits[textUnits.length - 1], textUnits.length - 1) ∈ textUnits.zipIdx :=
        List.mk_mem_zipIdx_iff_getElem?.mpr (List.getElem?_eq_getElem hpos)
      obtain ⟨_, _, _, hle⟩ := forall₂_exists_right hrows hlast
      dsimp only at hle
      omega
    · have heq : List.Forall₂ (fun row row' => row = row')
          (textUnits.zipIdx.map (finalRow ⟨textUnits, entities, relationships, covariates⟩))
          finalRows :=
        List.forall₂_map_left_iff.mpr (hrows.imp fun _ _ hrow => hrow.1.symm)
      exact List.forall₂_eq_eq_eq ▸ heq
  · rintro ⟨rows, hhold, hlength, rfl⟩
    obtain ⟨textUnitsFrame, htextUnits, hunits⟩ := hhold.textUnits
    obtain ⟨entitiesFrame, hentities, hentityRows⟩ := hhold.entities
    obtain ⟨relationshipsFrame, hrelationships, hrelationshipRows⟩ := hhold.relationships
    rw [htextUnits, hentities, hrelationships]
    refine bind_eq_ok.mpr ⟨_, rfl, ?_⟩
    refine bind_eq_ok.mpr ⟨_, readTextUnits_eq_ok_iff.mpr hunits, ?_⟩
    refine bind_eq_ok.mpr ⟨_, rfl, ?_⟩
    refine bind_eq_ok.mpr
      ⟨_, buildMultiRefMap_eq_ok_iff.mpr ⟨_, hentityRows, rfl⟩, ?_⟩
    refine bind_eq_ok.mpr ⟨_, rfl, ?_⟩
    refine bind_eq_ok.mpr
      ⟨_, buildMultiRefMap_eq_ok_iff.mpr ⟨_, hrelationshipRows, rfl⟩, ?_⟩
    refine bind_eq_ok.mpr ⟨_, covariateMapOf_eq_ok_iff.mpr
      ⟨_, hhold.covariates, hhold.noCovariates, rfl⟩, ?_⟩
    rw [mapM_eq_ok_iff, List.forall₂_map_right_iff, List.forall₂_same]
    intro textUnit hmem
    have hindex := List.snd_lt_of_mem_zipIdx hmem
    exact finalTextUnit_eq_ok_iff.mpr ⟨rfl, by omega⟩

/-- **Final text units have exact back-references**, whatever the tables hold. -/
theorem createFinalTextUnits_backReferences (extractClaims : Bool) (tables : OutputTables) :
    (∀ rows, TablesHold extractClaims tables rows → (rows.textUnits.length : ℤ) ≤ i64Max + 1 →
      ∃ final output, createFinalTextUnits extractClaims tables = .ok (final, output) ∧
        FinalTables tables rows final output) ∧
    ∀ result, createFinalTextUnits extractClaims tables = .ok result →
      ∃ rows, TablesHold extractClaims tables rows ∧
        (rows.textUnits.length : ℤ) ≤ i64Max + 1 := by
  unfold createFinalTextUnits
  constructor
  · intro rows hhold hlength
    rw [finalTextUnits_eq_ok_iff.mpr ⟨rows, hhold, hlength, rfl⟩]
    have hcount : (rows.textUnits.zipIdx.map (finalRow rows)).length = rows.textUnits.length := by
      rw [List.length_map, List.length_zipIdx]
    refine ⟨_, _, rfl, ⟨_, ?_, rfl, rfl⟩, rfl, hcount, hcount⟩
    rw [List.forall₂_map_right_iff, List.forall₂_same]
    exact fun textUnit _ => finalRow_final rows textUnit
  · intro result h
    obtain ⟨finalRows, hrows, -⟩ := bind_eq_ok.mp h
    obtain ⟨rows, hhold, hlength, -⟩ := finalTextUnits_eq_ok_iff.mp hrows
    exact ⟨rows, hhold, hlength⟩

/-! ### Claims that are not extracted -/

def sampleTextUnits : DataFrame :=
  .ofRows [
    ⟨"id", .string, fun _ => .string "t1"⟩,
    ⟨"text", .string, fun _ => .string "Alice reports Bob."⟩,
    ⟨"n_tokens", .int64, fun _ => .int64 4⟩,
    ⟨"document_id", .string, fun _ => .string "d1"⟩] [()]

def sampleReferences (id : String) : DataFrame :=
  .ofRows [
    ⟨"id", .string, fun _ => .string id⟩,
    ⟨"text_unit_ids", .list .string, fun _ => stringList ["t1", "t2", "t1"]⟩] [()]

def sampleCovariates : DataFrame :=
  .ofRows [
    ⟨"id", .string, fun _ => .string "c1"⟩,
    ⟨"text_unit_id", .string, fun _ => .string "t1"⟩] [()]

def sampleTables : OutputTables where
  textUnits := some sampleTextUnits
  entities := some (sampleReferences "e1")
  relationships := some (sampleReferences "r1")
  covariates := some sampleCovariates

/-- The final row when claims are not extracted. -/
def sampleRow : TextUnitRow where
  id := "t1"
  humanReadableId := 0
  text := "Alice reports Bob."
  nTokens := 4
  documentId := "d1"
  entityIds := ["e1", "e1"]
  relationshipIds := ["r1", "r1"]
  covariateIds := []

/-- A table of covariates is not read when claims are not extracted. -/
theorem createFinalTextUnits_claims_disabled :
    CovariateRows sampleCovariates [⟨"c1", ["t1"]⟩] ∧
      (∃ output, createFinalTextUnits false sampleTables =
        .ok ({ sampleTables with textUnits := some (textUnitsDataframe [sampleRow]) }, output)) ∧
      sampleRow.covariateIds.count "c1" ≠ ["t1"].count sampleRow.id := by
  have hrows : finalTextUnits false sampleTables = .ok [sampleRow] := by decide +kernel
  refine ⟨⟨_, _, ⟨rfl, rfl⟩, ⟨rfl, rfl⟩, .cons ⟨"t1", rfl, rfl, rfl⟩ .nil⟩, ?_, by decide⟩
  unfold createFinalTextUnits
  rw [hrows]
  exact ⟨_, rfl⟩

end GraphLoom.TextUnits
