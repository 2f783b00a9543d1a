import GraphLoom.Llm.Equiv.Gleaning

/-!
# Records that are rendered and parsed

A list of clean records in the format of the prompt is parsed as itself when the completion marker
is a piece of its own.  Directly behind the last record the marker becomes part of its last field,
which is no loss only to a relationship that weighs one (`parseGraphTuples_render_iff`).
-/

namespace GraphLoom.Llm

open Foundation

variable {ω : Type} {tools : GraphTools ω}

/-! ### Clean records -/

/-- A text that `clean_str` leaves as it is, without a delimiter. -/
structure CleanText (tools : GraphTools ω) (text : String) : Prop where
  trimmed : trim text = text
  decoded : tools.decodeHtmlEntities text = text
  controls : ∀ c ∈ text.toList, isControl c = false
  tuple : ¬ tupleDelimiter.toList <:+: text.toList
  record : ¬ recordDelimiter.toList <:+: text.toList

/-- A clean text in upper case. -/
structure CleanName (tools : GraphTools ω) (text : String) : Prop extends CleanText tools text where
  upper : tools.toUppercase text = text

/-- The text of a finite number. -/
structure NumberText (tools : GraphTools ω) (weight : ω) (text : String) : Prop where
  parses : tools.parseWeight text = some weight
  digits : ∀ c ∈ text.toList, c.isDigit ∨ c ∈ ['+', '-', '.', 'e', 'E']

/-- A record, a relationship with the text of its weight. -/
inductive GraphRecord (ω : Type) where
  | entity (title entityType description : String)
  | relationship (source target description : String) (weight : ω) (strength : String)
deriving DecidableEq, Repr

namespace GraphRecord

def tuple : GraphRecord ω → GraphTuple
  | entity title entityType description => .entity title entityType description
  | relationship source target description _ strength =>
    .relationship source target description strength

/-- What the record is to be parsed as. -/
def row (sourceId : String) : GraphRecord ω → EntityRecord ⊕ RelationshipRecord ω
  | entity title entityType description => .inl ⟨title, entityType, description, sourceId⟩
  | relationship source target description weight _ =>
    .inr ⟨source, target, description, sourceId, weight⟩

def Clean (tools : GraphTools ω) : GraphRecord ω → Prop
  | entity title entityType description =>
    CleanName tools title ∧ CleanName tools entityType ∧ CleanText tools description
  | relationship source target description weight strength =>
    CleanName tools source ∧ CleanName tools target ∧ CleanText tools description ∧
      NumberText tools weight strength

end GraphRecord

theorem NumberText.plain {weight : ω} {text : String} (h : NumberText tools weight text) {c : Char}
    (hc : c ∈ text.toList) : isWhiteSpace c = false ∧ c ≠ '#' ∧ c ≠ '<' := by
  rcases h.digits c hc with hdigit | hmem
  · unfold Char.isDigit at hdigit
    rw [Bool.and_eq_true, decide_eq_true_iff, decide_eq_true_iff] at hdigit
    have hcode : 48 ≤ c.toNat ∧ c.toNat ≤ 57 := ⟨hdigit.1, hdigit.2⟩
    refine ⟨?_, ?_, ?_⟩
    · unfold isWhiteSpace
      simp
      omega
    · rintro rfl
      revert hcode
      decide
    · rintro rfl
      revert hcode
      decide
  · have hall : ∀ c ∈ ['+', '-', '.', 'e', 'E'], isWhiteSpace c = false ∧ c ≠ '#' ∧ c ≠ '<' :=
      List.all_iff_forall_prop.mp (by decide)
    exact hall c hmem

theorem CleanText.cleanStr_eq {text : String} (h : CleanText tools text) :
    cleanStr tools text = text := by
  have hfilter : text.toList.filter (fun c => !isControl c) = text.toList := by
    refine List.filter_eq_self.mpr fun c hc => ?_
    rw [h.controls c hc]
    rfl
  rw [cleanStr, h.trimmed, h.decoded, hfilter, String.ofList_toList]

theorem CleanName.cleanStr_eq {text : String} (h : CleanName tools text) :
    cleanStr tools (tools.toUppercase text) = text := by
  rw [h.upper, h.toCleanText.cleanStr_eq]

variable {record : GraphRecord ω}

/-- A clean record with nothing behind it is read as itself. -/
theorem GraphRecord.Clean.row_eq [One ω] (h : record.Clean tools)
    (sourceId : String) : record.tuple.row tools sourceId "" = record.row sourceId := by
  cases record with
  | entity title entityType description =>
    obtain ⟨htitle, htype, hdescription⟩ := h
    show Sum.inl _ = Sum.inl _
    rw [String.append_empty, htitle.cleanStr_eq, htype.cleanStr_eq, hdescription.cleanStr_eq]
  | relationship source target description weight strength =>
    obtain ⟨hsource, htarget, hdescription, hweight⟩ := h
    show Sum.inr _ = Sum.inr _
    rw [String.append_empty, hsource.cleanStr_eq, htarget.cleanStr_eq, hdescription.cleanStr_eq,
      hweight.parses]
    rfl

/-! ### Fields -/

/-- The characters between the parentheses. -/
def GraphTuple.body (t : GraphTuple) : List Char :=
  ['<', '|', '>'].intercalate ((t.fieldsWith "").map String.toList)

theorem not_occurs_cons {c : Char} {cs : List Char} (hc : c ≠ '#') (h : ¬ ['#', '#'] <:+: cs) :
    ¬ ['#', '#'] <:+: c :: cs := by
  rw [List.infix_cons_iff]
  rintro (hstarts | hoccurs)
  · exact hc (List.cons_prefix_cons.mp hstarts).1.symm
  · exact h hoccurs

theorem not_occurs_intercalate {pieces : List (List Char)}
    (h : ∀ piece ∈ pieces, ¬ ['#', '#'] <:+: piece) :
    ¬ ['#', '#'] <:+: ['<', '|', '>'].intercalate pieces := by
  induction pieces with
  | nil => simp
  | cons piece pieces ih =>
    have hrest := ih fun other hother => h other (List.mem_cons_of_mem _ hother)
    cases pieces with
    | nil =>
      rw [List.intercalate_singleton]
      exact h piece (List.mem_cons_self ..)
    | cons next pieces =>
      rw [List.intercalate_cons_cons, List.append_assoc]
      refine not_occurs_append_cons (by decide) (h piece (List.mem_cons_self ..)) ?_
      exact not_occurs_cons (by decide) (not_occurs_cons (by decide) hrest)

theorem isTrimmed_field {first : Char} (hfirst : isWhiteSpace first = false) (middle : List Char)
    {last : List Char} (hlast : IsTrimmed last) :
    IsTrimmed (first :: (middle ++ '>' :: last)) := by
  constructor
  · intro c hc
    obtain rfl := Option.some.inj hc
    exact hfirst
  · intro c hc
    have hsplit : first :: (middle ++ '>' :: last) = (first :: middle ++ ['>']) ++ last := by simp
    rw [hsplit, List.getLast?_append] at hc
    cases hback : last.getLast? with
    | some d =>
      rw [hback] at hc
      obtain rfl := Option.some.inj hc
      exact hlast.last d hback
    | none =>
      rw [hback, Option.none_or, List.getLast?_concat] at hc
      obtain rfl := Option.some.inj hc
      decide

/-- No delimiter is in the text. -/
def Free (text : String) : Prop :=
  ¬ ['<', '|', '>'] <:+: text.toList ∧ ¬ ['#', '#'] <:+: text.toList

theorem CleanText.free {text : String} (h : CleanText tools text) : Free text :=
  ⟨by simpa only [tupleDelimiter_toList] using h.tuple,
    by simpa only [recordDelimiter_toList] using h.record⟩

theorem NumberText.free {weight : ω} {text : String} (h : NumberText tools weight text) :
    Free text := by
  constructor
  · intro hoccurs
    exact (h.plain (hoccurs.subset (List.mem_cons_self ..))).2.2 rfl
  · intro hoccurs
    exact (h.plain (hoccurs.subset (List.mem_cons_self ..))).2.1 rfl

/-- The fields of the tuple are free of delimiters, and the last one is trimmed. -/
structure GraphTuple.Plain (t : GraphTuple) : Prop where
  free : ∀ field ∈ t.fieldsWith "", Free field
  trimmed : IsTrimmed t.last.toList

namespace GraphTuple.Plain

variable {t : GraphTuple}

theorem body_trimmed (h : t.Plain) : IsTrimmed t.body := by
  cases t with
  | entity title entityType description =>
    have hbody : body (.entity title entityType description) =
        '"' :: ("entity\"<|>".toList ++ title.toList ++ "<|>".toList ++ entityType.toList ++
          "<|".toList ++ '>' :: description.toList) := by
      simp [body, fieldsWith, front, last, List.intercalate]
    rw [hbody]
    exact isTrimmed_field (by decide) _ h.trimmed
  | relationship source target description strength =>
    have hbody : body (.relationship source target description strength) =
        '"' :: ("relationship\"<|>".toList ++ source.toList ++ "<|>".toList ++ target.toList ++
          "<|>".toList ++ description.toList ++ "<|".toList ++ '>' :: strength.toList) := by
      simp [body, fieldsWith, front, last, List.intercalate]
    rw [hbody]
    exact isTrimmed_field (by decide) _ h.trimmed

/-- The fields are read off the text between the parentheses. -/
theorem split_body (h : t.Plain) :
    split tupleDelimiter (trim (String.ofList t.body)) = t.fieldsWith "" := by
  have htrim : trim (String.ofList t.body) = String.ofList t.body := by
    have hpad := trim_pad Blank.nil h.body_trimmed Blank.nil
    rwa [List.append_nil, List.nil_append] at hpad
  rw [htrim, split, tupleDelimiter_toList, String.toList_ofList, body,
    splitAtAll_intercalate (List.cons_ne_nil _ _)]
  · rw [List.map_map]
    simp [Function.comp_def, String.ofList_toList]
  · cases t <;> simp [fieldsWith, front]
  · intro piece hpiece
    obtain ⟨field, hfield, rfl⟩ := List.mem_map.mp hpiece
    exact ⟨tupleDelimiter_separated (h.free field hfield).1, (h.free field hfield).1⟩

theorem not_occurs_body (h : t.Plain) : ¬ ['#', '#'] <:+: t.body := by
  refine not_occurs_intercalate fun piece hpiece => ?_
  obtain ⟨field, hfield, rfl⟩ := List.mem_map.mp hpiece
  exact (h.free field hfield).2

end GraphTuple.Plain

theorem GraphRecord.Clean.plain (h : record.Clean tools) : record.tuple.Plain := by
  cases record with
  | entity title entityType description =>
    obtain ⟨htitle, htype, hdescription⟩ := h
    refine ⟨?_, isTrimmed_of_trim hdescription.trimmed⟩
    show ∀ field ∈ ["\"entity\"", title, entityType, description ++ ""], Free field
    rw [String.append_empty]
    simp only [List.forall_mem_cons, List.not_mem_nil, false_imp_iff, implies_true, and_true]
    exact ⟨⟨by decide, by decide⟩, htitle.free, htype.free, hdescription.free⟩
  | relationship source target description weight strength =>
    obtain ⟨hsource, htarget, hdescription, hweight⟩ := h
    refine ⟨?_, ?_⟩
    · show ∀ field ∈ ["\"relationship\"", source, target, description, strength ++ ""], Free field
      rw [String.append_empty]
      simp only [List.forall_mem_cons, List.not_mem_nil, false_imp_iff, implies_true, and_true]
      exact ⟨⟨by decide, by decide⟩, hsource.free, htarget.free, hdescription.free, hweight.free⟩
    · constructor
      · intro c hc
        exact (hweight.plain (List.mem_of_mem_head? hc)).1
      · intro c hc
        exact (hweight.plain (List.mem_of_getLast? hc)).1

/-! ### Rendering -/

/-- The record in the format of the prompt. -/
def GraphRecord.render : GraphRecord ω → String
  | entity title entityType description =>
    "(\"entity\"<|>" ++ title ++ "<|>" ++ entityType ++ "<|>" ++ description ++ ")"
  | relationship source target description _ strength =>
    "(\"relationship\"<|>" ++ source ++ "<|>" ++ target ++ "<|>" ++ description ++ "<|>" ++
      strength ++ ")"

theorem GraphRecord.toList_render (record : GraphRecord ω) :
    record.render.toList = '(' :: (record.tuple.body ++ [')']) := by
  have hdelimiter : "<|>".toList = ['<', '|', '>'] := by decide
  have hclose : ")".toList = [')'] := by decide
  have hentity : "(\"entity\"<|>".toList = '(' :: ("\"entity\"".toList ++ ['<', '|', '>']) := by
    decide +kernel
  have hrelationship : "(\"relationship\"<|>".toList =
      '(' :: ("\"relationship\"".toList ++ ['<', '|', '>']) := by
    decide +kernel
  unfold render tuple
  cases record with
  | entity | relationship =>
    simp only [GraphTuple.body, GraphTuple.fieldsWith, GraphTuple.front, GraphTuple.last,
      String.toList_append, hentity, hrelationship, hdelimiter, hclose, String.append_empty,
      List.map_cons, List.map_nil, List.cons_append, List.nil_append,
      List.intercalate_cons_cons, List.intercalate_singleton, List.append_assoc]

/-- A clean record with white space around it. -/
structure SpacedRecord (tools : GraphTools ω) where
  before : String
  record : GraphRecord ω
  after : String
  blankBefore : Blank before.toList
  blankAfter : Blank after.toList
  clean : record.Clean tools

def SpacedRecord.text (spaced : SpacedRecord tools) : String :=
  spaced.before ++ spaced.record.render ++ spaced.after

/-- Where the completion marker stands, with the white space around it: behind a last record
delimiter, or behind a line break. -/
inductive OutputEnding where
  | delimiter (gap after : String) (hgap : Blank gap.toList) (hafter : Blank after.toList)
  | lineBreak (gap after : String) (hgap : Blank gap.toList) (hafter : Blank after.toList)

def renderOutput (records : List (SpacedRecord tools)) : OutputEnding → String
  | .delimiter gap after _ _ =>
    recordDelimiter.intercalate
      (records.map (·.text) ++ [gap ++ completionDelimiter ++ after])
  | .lineBreak gap after _ _ =>
    recordDelimiter.intercalate (records.map (·.text)) ++
      (gap ++ "\n" ++ completionDelimiter ++ after)

/-! ### The pieces of the text -/

/-- A text without a record delimiter that does not end with a part of one. -/
def IsPiece (piece : List Char) : Prop :=
  ¬ ['#', '#'] <:+: piece ∧ ∀ c, piece.getLast? = some c → c ≠ '#'

theorem IsPiece.separated {piece : List Char} (h : IsPiece piece) : Separated ['#', '#'] piece := by
  refine separated_of_not_occurs h.1 fun back hsuffix hne hlength hstarts => ?_
  match back, hne, hlength with
  | [c], _, _ =>
    obtain ⟨front, rfl⟩ := hsuffix
    exact h.2 c (by rw [List.getLast?_concat]) (List.cons_prefix_cons.mp hstarts).1.symm

theorem split_pieces {pieces : List String} (hne : pieces ≠ [])
    (h : ∀ piece ∈ pieces, IsPiece piece.toList) :
    split recordDelimiter (recordDelimiter.intercalate pieces) = pieces := by
  rw [split, recordDelimiter_toList, String.toList_intercalate, recordDelimiter_toList,
    splitAtAll_intercalate (List.cons_ne_nil _ _) (by simpa using hne)]
  · rw [List.map_map]
    simp [Function.comp_def, String.ofList_toList]
  · intro piece hpiece
    obtain ⟨text, htext, rfl⟩ := List.mem_map.mp hpiece
    exact ⟨(h text htext).separated, (h text htext).1⟩

theorem isPiece_of_trailer {trailer : List Char} (h : Trailer trailer) : IsPiece trailer := by
  refine ⟨fun hoccurs => h.hash_not_mem (hoccurs.subset (List.mem_cons_self ..)), ?_⟩
  rintro c hc rfl
  exact h.hash_not_mem (List.mem_of_getLast? hc)

/-- A record between white space and a trailer. -/
theorem isPiece_record (hclean : record.Clean tools)
    {before trailer : List Char} (hbefore : Blank before) (htrailer : Trailer trailer) :
    IsPiece (before ++ (record.render.toList ++ trailer)) := by
  have hrecord : ¬ ['#', '#'] <:+: record.tuple.body ++ ')' :: trailer :=
    not_occurs_append_cons (by decide) hclean.plain.not_occurs_body (isPiece_of_trailer htrailer).1
  rw [record.toList_render]
  constructor
  · rw [List.cons_append, List.append_assoc, List.singleton_append]
    exact not_occurs_append_cons (by decide) (isPiece_of_trailer (.of_blank hbefore)).1 hrecord
  · intro c hc
    rw [List.cons_append, List.append_assoc, List.singleton_append, List.getLast?_append_cons,
      ← List.cons_append, List.getLast?_append_cons] at hc
    cases trailer with
    | nil =>
      obtain rfl := Option.some.inj hc
      decide
    | cons d trailer =>
      rw [List.getLast?_cons_cons] at hc
      exact (isPiece_of_trailer htrailer).2 c hc

/-- What the record of a piece is read as. -/
theorem parse_record [One ω] (sourceId : String) (hclean : record.Clean tools) :
    ∃ gap, Blank gap ∧ ∀ before trailer, Blank before → Trailer trailer →
      parseGraphTuple tools sourceId (String.ofList (before ++ (record.render.toList ++ trailer))) =
        some (record.tuple.row tools sourceId (String.ofList (spill gap trailer))) := by
  obtain ⟨gap, hgap, hspill⟩ := exists_spill tools sourceId hclean.plain.split_body
  refine ⟨gap, hgap, fun before trailer hbefore htrailer => ?_⟩
  rw [record.toList_render, List.cons_append, List.append_assoc, List.singleton_append]
  exact hspill before trailer hbefore htrailer

theorem parse_spaced [One ω] (sourceId : String) (spaced : SpacedRecord tools) :
    parseGraphTuple tools sourceId spaced.text = some (spaced.record.row sourceId) := by
  obtain ⟨gap, -, hspill⟩ := parse_record sourceId spaced.clean
  have htext : spaced.text = String.ofList (spaced.before.toList ++ (spaced.record.render.toList ++
      spaced.after.toList)) := by
    rw [← String.toList_append, ← String.toList_append, String.ofList_toList, SpacedRecord.text,
      String.append_assoc]
  rw [htext, hspill _ _ spaced.blankBefore (.of_blank spaced.blankAfter),
    spill_of_blank spaced.blankAfter]
  exact congrArg some (spaced.clean.row_eq sourceId)

/-! ### The round trip -/

/-- The records that weigh one: relationships of weight one. -/
def GraphRecord.WeighsOne [One ω] : GraphRecord ω → Prop
  | entity .. => False
  | relationship _ _ _ weight _ => weight = 1

theorem weighsOne_tuple_iff [One ω] (hclean : record.Clean tools) :
    record.tuple.WeighsOne tools false ↔ record.WeighsOne := by
  cases record with
  | entity title entityType description => exact Iff.rfl
  | relationship source target description weight strength =>
    show (false = true ∨ (tools.parseWeight strength).getD 1 = 1) ↔ weight = 1
    rw [hclean.2.2.2.parses]
    simp

def extractionOf (rows : List (EntityRecord ⊕ RelationshipRecord ω)) : GraphExtraction ω :=
  ⟨rows.filterMap Sum.getLeft?, rows.filterMap Sum.getRight?⟩

theorem parseGraphTuples_eq [One ω] (text sourceId : String) :
    parseGraphTuples tools text sourceId = extractionOf
      ((split recordDelimiter text).filterMap (parseGraphTuple tools sourceId)) := rfl

/-- Two lists of rows that differ in the last row, of one kind, give two extractions. -/
theorem extractionOf_concat_iff {rows : List (EntityRecord ⊕ RelationshipRecord ω)}
    {row row' : EntityRecord ⊕ RelationshipRecord ω} (hkind : row.isLeft = row'.isLeft) :
    extractionOf (rows ++ [row]) = extractionOf (rows ++ [row']) ↔ row = row' := by
  constructor
  · intro heq
    obtain ⟨hleft, hright⟩ := GraphExtraction.mk.inj heq
    have hrows := rows_eq (by simp [hkind]) hleft hright
    exact (List.cons.inj (List.append_cancel_left hrows)).1
  · rintro rfl
    rfl

theorem isLeft_row [One ω] (record : GraphRecord ω) (sourceId suffix : String) :
    (record.tuple.row tools sourceId suffix).isLeft = (record.row sourceId).isLeft := by
  cases record <;> rfl

theorem isPiece_spaced (spaced : SpacedRecord tools) {trailer : List Char}
    (htrailer : Trailer trailer) : IsPiece (spaced.text.toList ++ trailer) := by
  rw [SpacedRecord.text, String.toList_append, String.toList_append, List.append_assoc,
    List.append_assoc]
  exact isPiece_record spaced.clean spaced.blankBefore
    ((Trailer.of_blank spaced.blankAfter).append htrailer)

theorem filterMap_spaced [One ω] (sourceId : String) (records : List (SpacedRecord tools)) :
    (records.map (·.text)).filterMap (parseGraphTuple tools sourceId) =
      records.map fun spaced => spaced.record.row sourceId := by
  induction records with
  | nil => rfl
  | cons spaced records ih =>
    rw [List.map_cons, List.map_cons, List.filterMap_cons_some (parse_spaced sourceId spaced), ih]

variable {gap after : String}

/-- White space and the marker. -/
theorem trailer_marker (hgap : Blank gap.toList) (hafter : Blank after.toList) :
    Trailer (gap ++ completionDelimiter ++ after).toList := by
  rw [String.toList_append, String.toList_append, List.append_assoc]
  exact (Trailer.of_blank hgap).append (.marker (.of_blank hafter))

theorem parse_marker [One ω] (sourceId : String) (hgap : Blank gap.toList) :
    parseGraphTuple tools sourceId (gap ++ completionDelimiter ++ after) = none := by
  have htext : gap ++ completionDelimiter ++ after =
      String.ofList (gap.toList ++ (completionDelimiter.toList ++ after.toList)) := by
    rw [← String.toList_append, ← String.toList_append, String.ofList_toList, String.append_assoc]
  rw [htext]
  exact parseGraphTuple_marker tools sourceId hgap _

theorem intercalate_concat_append (delim : String) (front : List String) (last back : String) :
    delim.intercalate (front ++ [last]) ++ back = delim.intercalate (front ++ [last ++ back]) := by
  cases front with
  | nil => simp
  | cons piece front =>
    rw [String.intercalate_append_of_ne_nil (List.cons_ne_nil _ _) (List.cons_ne_nil _ _),
      String.intercalate_append_of_ne_nil (List.cons_ne_nil _ _) (List.cons_ne_nil _ _),
      String.intercalate_singleton, String.intercalate_singleton, String.append_assoc]

/-- A marker of its own is no record. -/
theorem parse_delimiter [One ω] (records : List (SpacedRecord tools)) (sourceId : String)
    (hgap : Blank gap.toList) (hafter : Blank after.toList) :
    parseGraphTuples tools (renderOutput records (.delimiter gap after hgap hafter)) sourceId =
      extractionOf (records.map fun spaced => spaced.record.row sourceId) := by
  rw [parseGraphTuples_eq, renderOutput, split_pieces (by simp)]
  · rw [List.filterMap_append, filterMap_spaced, List.filterMap_cons_none (parse_marker _ hgap),
      List.filterMap_nil, List.append_nil]
  · intro piece hpiece
    rcases List.mem_append.mp hpiece with hpiece | hpiece
    · obtain ⟨spaced, -, rfl⟩ := List.mem_map.mp hpiece
      have hspaced := isPiece_spaced spaced .nil
      rwa [List.append_nil] at hspaced
    · rw [List.mem_singleton.mp hpiece]
      exact isPiece_of_trailer (trailer_marker hgap hafter)

theorem blank_line {gap : String} (hgap : Blank gap.toList) : Blank (gap ++ "\n").toList := by
  have hbreak : ∀ c ∈ "\n".toList, isWhiteSpace c = true := List.all_eq_true.mp (by decide)
  rw [String.toList_append]
  exact hgap.append hbreak

/-- White space around the marker in a line of its own. -/
theorem trailer_line (hgap : Blank gap.toList) (hafter : Blank after.toList) :
    Trailer (gap ++ "\n" ++ completionDelimiter ++ after).toList :=
  trailer_marker (blank_line hgap) hafter

/-- Behind the last record the marker counts to its last field. -/
theorem parse_lineBreak_iff [One ω] (htools : tools.Lawful) (front : List (SpacedRecord tools))
    (last : SpacedRecord tools) (sourceId : String) (hgap : Blank gap.toList)
    (hafter : Blank after.toList) :
    parseGraphTuples tools (renderOutput (front ++ [last]) (.lineBreak gap after hgap hafter))
        sourceId =
      extractionOf ((front ++ [last]).map fun spaced => spaced.record.row sourceId) ↔
        last.record.WeighsOne := by
  have htrailer := trailer_line hgap hafter
  have hpieces : ∀ piece ∈ front.map (·.text) ++
      [last.text ++ (gap ++ "\n" ++ completionDelimiter ++ after)], IsPiece piece.toList := by
    intro piece hpiece
    rcases List.mem_append.mp hpiece with hpiece | hpiece
    · obtain ⟨spaced, -, rfl⟩ := List.mem_map.mp hpiece
      have hspaced := isPiece_spaced spaced .nil
      rwa [List.append_nil] at hspaced
    · rw [List.mem_singleton.mp hpiece, String.toList_append]
      exact isPiece_spaced last htrailer
  obtain ⟨inner, hinner, hspill⟩ := parse_record sourceId last.clean
  -- the marker with the white space around it
  obtain ⟨head, tail, hsplit, htail⟩ : ∃ head tail,
      (gap ++ "\n" ++ completionDelimiter ++ after).toList = head ++ '>' :: tail ∧ Blank tail := by
    rcases htrailer.blank_or with hblank | hmarked
    · exfalso
      have hmem : '<' ∈ (gap ++ "\n" ++ completionDelimiter ++ after).toList := by
        simp [completionDelimiter_toList]
      exact absurd (hblank '<' hmem) (by decide)
    · exact hmarked
  have hlast : parseGraphTuple tools sourceId
      (last.text ++ (gap ++ "\n" ++ completionDelimiter ++ after)) =
        some (last.record.tuple.row tools sourceId
          (String.ofList (spill inner (last.after.toList ++ (head ++ '>' :: tail))))) := by
    have htext : last.text ++ (gap ++ "\n" ++ completionDelimiter ++ after) =
        String.ofList (last.before.toList ++ (last.record.render.toList ++
          (last.after.toList ++ (head ++ '>' :: tail)))) := by
      rw [← hsplit, ← String.toList_inj, String.toList_ofList, String.toList_append,
        SpacedRecord.text, String.toList_append, String.toList_append, List.append_assoc,
        List.append_assoc]
    rw [htext, hspill _ _ last.blankBefore]
    rw [← hsplit]
    exact (Trailer.of_blank last.blankAfter).append htrailer
  have hrow := row_eq_iff htools sourceId last.record.tuple (Trailer.of_blank hinner)
    (Trailer.of_blank last.blankAfter) (by rwa [hsplit] at htrailer) htail
    (iff_of_true rfl last.blankAfter)
  have hclean : last.record.tuple.row tools sourceId
      (String.ofList (spill inner last.after.toList)) = last.record.row sourceId := by
    rw [spill_of_blank last.blankAfter]
    exact last.clean.row_eq sourceId
  rw [hclean] at hrow
  rw [parseGraphTuples_eq, renderOutput, List.map_append, List.map_singleton,
    intercalate_concat_append, split_pieces (by simp) hpieces, List.filterMap_append,
    filterMap_spaced, List.filterMap_cons_some hlast, List.filterMap_nil, List.map_append,
    List.map_singleton, extractionOf_concat_iff (isLeft_row ..), hrow,
    weighsOne_tuple_iff last.clean]

/-- Where the marker stands behind a record delimiter. -/
def OutputEnding.IsDelimiter : OutputEnding → Prop
  | .delimiter .. => True
  | .lineBreak .. => False

/-- **Clean records are parsed as themselves exactly when the marker is a piece of its own or stands
behind a record that weighs one.** -/
theorem parseGraphTuples_render_iff [One ω] (htools : tools.Lawful)
    (records : List (SpacedRecord tools)) (ending : OutputEnding) (sourceId : String) :
    parseGraphTuples tools (renderOutput records ending) sourceId =
        extractionOf (records.map fun spaced => spaced.record.row sourceId) ↔
      ending.IsDelimiter ∨ ∀ last, records.getLast? = some last → last.record.WeighsOne := by
  cases ending with
  | delimiter gap after hgap hafter =>
    exact iff_of_true (parse_delimiter records sourceId hgap hafter) (.inl trivial)
  | lineBreak gap after hgap hafter =>
    rcases List.eq_nil_or_concat records with rfl | ⟨front, last, rfl⟩
    · refine iff_of_true ?_ (.inr fun last hlast => nomatch hlast)
      -- the marker alone
      have halone : renderOutput ([] : List (SpacedRecord tools))
          (.lineBreak gap after hgap hafter) =
            renderOutput ([] : List (SpacedRecord tools))
              (.delimiter (gap ++ "\n") after (blank_line hgap) hafter) := by
        simp [renderOutput]
      rw [halone]
      exact parse_delimiter [] sourceId (blank_line hgap) hafter
    · rw [List.concat_eq_append, parse_lineBreak_iff htools, List.getLast?_concat]
      constructor
      · intro hone
        refine .inr fun last' hlast' => ?_
        obtain rfl := Option.some.inj hlast'
        exact hone
      · rintro (habsurd | hone)
        · exact absurd habsurd id
        · exact hone last rfl

/-! ### A relationship in the format of the prompt -/

/-- Tools that read the digit nine. -/
def nineTools : GraphTools ℕ where
  toUppercase := String.toUpper
  decodeHtmlEntities := id
  parseWeight text := if text = "9" then some 9 else none

theorem nineTools_lawful : nineTools.Lawful where
  decode_append _ _ _ := rfl
  parseWeight text htext := by
    refine if_neg fun hnine => ?_
    rw [hnine] at htext
    exact absurd htext (by decide)

def nineRecord : GraphRecord ℕ := .relationship "ALICE" "BOB" "knows" 9 "9"

theorem nineRecord_clean : nineRecord.Clean nineTools := by
  have hclean : ∀ text ∈ ["ALICE", "BOB", "knows"], CleanText nineTools text := by
    intro text htext
    have hall : ∀ text ∈ ["ALICE", "BOB", "knows"], trim text = text ∧
        (∀ c ∈ text.toList, isControl c = false) ∧ ¬ tupleDelimiter.toList <:+: text.toList ∧
          ¬ recordDelimiter.toList <:+: text.toList := by
      simp only [← List.all_iff_forall_prop]
      decide +kernel
    obtain ⟨htrim, hcontrols, htuple, hrecord⟩ := hall text htext
    exact ⟨htrim, rfl, hcontrols, htuple, hrecord⟩
  exact ⟨⟨hclean _ (by simp), by decide +kernel⟩, ⟨hclean _ (by simp), by decide +kernel⟩,
    hclean _ (by simp), ⟨by decide +kernel, List.all_iff_forall_prop.mp (by decide +kernel)⟩⟩

def nineSpaced : SpacedRecord nineTools :=
  ⟨"", nineRecord, "", fun _ hc => (nomatch hc), fun _ hc => (nomatch hc), nineRecord_clean⟩

def lineEnding : OutputEnding := .lineBreak "" "" (fun _ hc => nomatch hc) (fun _ hc => nomatch hc)

/-- Two records with the marker as a piece of its own. -/
theorem parseGraphTuples_render_iff_nine :
    parseGraphTuples nineTools (renderOutput [nineSpaced, nineSpaced]
        (.delimiter "" "" (fun _ hc => nomatch hc) fun _ hc => nomatch hc)) "t1" =
      extractionOf [nineRecord.row "t1", nineRecord.row "t1"] :=
  (parseGraphTuples_render_iff nineTools_lawful [nineSpaced, nineSpaced]
    (.delimiter "" "" _ _) "t1").mpr (.inl trivial)

/-- The strength of the last relationship is lost. -/
theorem parseGraphTuples_strength_lost :
    renderOutput [nineSpaced] lineEnding =
      "(\"relationship\"<|>ALICE<|>BOB<|>knows<|>9)\n<|COMPLETE|>" ∧
    parseGraphTuples nineTools
        "(\"relationship\"<|>ALICE<|>BOB<|>knows<|>9)\n<|COMPLETE|>" "t1" =
      ⟨[], [⟨"ALICE", "BOB", "knows", "t1", 1⟩]⟩ ∧
    ¬ parseGraphTuples nineTools (renderOutput [nineSpaced] lineEnding) "t1" =
      extractionOf [nineRecord.row "t1"] := by
  refine ⟨by decide +kernel, by decide +kernel, by decide +kernel⟩

end GraphLoom.Llm
