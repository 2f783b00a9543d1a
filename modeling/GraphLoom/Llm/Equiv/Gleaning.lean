import GraphLoom.Foundation.Blocks
import GraphLoom.Foundation.Fallible
import GraphLoom.Llm.Equiv.GraphTuples

/-!
# Responses that are put one behind the other

The last piece of a response and the first one of the next become one piece of the joined text
(`joinedPieces`).  The joined text is read as the responses are, one by one, exactly when every
piece of it is whole: it holds one record at most, with nothing in front of it, and a marker that a
later response puts behind it makes no difference to it (`parseGraphTuples_joined_iff`).
-/

namespace GraphLoom.Llm

open Foundation

variable {ω : Type} {tools : GraphTools ω}

/-- What the reading of records relies on: HTML entities begin with `&` and end with `;`, and no
number has a parenthesis. -/
structure GraphTools.Lawful (tools : GraphTools ω) : Prop where
  decode_append : ∀ x y : String, (∀ c ∈ y.toList, c ≠ '&' ∧ c ≠ ';') →
    tools.decodeHtmlEntities (x ++ y) = tools.decodeHtmlEntities x ++ y
  parseWeight : ∀ x : String, ')' ∈ x.toList → tools.parseWeight x = none

/-! ### What a marker does to a record -/

/-- A text that does not end with white space only loses the white space in front. -/
theorem trimChars_concat (front : List Char) {c : Char} (hc : isWhiteSpace c = false) :
    trimChars (front ++ [c]) = front.dropWhile isWhiteSpace ++ [c] := by
  have hdrop : (front ++ [c]).dropWhile isWhiteSpace = front.dropWhile isWhiteSpace ++ [c] := by
    rw [List.dropWhile_append]
    split
    · next hempty =>
      rw [List.isEmpty_iff.mp hempty, List.dropWhile_cons_of_neg (by simp [hc])]
      rfl
    · rfl
  rw [trimChars, hdrop, List.reverse_concat, List.dropWhile_cons_of_neg (by simp [hc]),
    ← List.reverse_concat, List.reverse_reverse]

/-- Trimming keeps a text that ends with a marker behind what is left of the text before. -/
theorem trimChars_append_marked (front added : List Char) :
    ∃ kept, trimChars (front ++ (added ++ ['>'])) = trimChars front ++ (kept ++ ['>']) ∧
      ∀ c ∈ kept, c ∈ added ∨ isWhiteSpace c = true := by
  rw [← List.append_assoc, trimChars_concat (front ++ added) (by decide), List.dropWhile_append]
  split
  · next hempty =>
    -- there is only white space before
    have hnil : trimChars front = [] := by
      rw [trimChars, List.isEmpty_iff.mp hempty]
      rfl
    refine ⟨added.dropWhile isWhiteSpace, ?_, fun c hc => ?_⟩
    · rw [hnil, List.nil_append]
    · exact Or.inl ((List.dropWhile_sublist _).subset hc)
  · refine ⟨((front.dropWhile isWhiteSpace).reverse.takeWhile isWhiteSpace).reverse ++ added, ?_,
      fun c hc => ?_⟩
    · have hsplit : front.dropWhile isWhiteSpace = trimChars front ++
          ((front.dropWhile isWhiteSpace).reverse.takeWhile isWhiteSpace).reverse := by
        rw [trimChars, ← List.reverse_append, List.takeWhile_append_dropWhile,
          List.reverse_reverse]
      nth_rewrite 1 [hsplit]
      simp
    · rw [List.mem_append, List.mem_reverse] at hc
      rcases hc with hc | hc
      · exact Or.inr (List.mem_takeWhile_imp hc)
      · exact Or.inl hc

/-- A text that ends with a marker changes what a field is read as. -/
theorem cleanStr_append_ne (htools : tools.Lawful) (field : String) {added : List Char}
    (hplain : ∀ c ∈ added, c ≠ '&' ∧ c ≠ ';') :
    cleanStr tools (field ++ String.ofList (added ++ ['>'])) ≠ cleanStr tools field := by
  obtain ⟨kept, htrim, hkept⟩ := trimChars_append_marked field.toList added
  have hplain' : ∀ c ∈ (String.ofList (kept ++ ['>'])).toList, c ≠ '&' ∧ c ≠ ';' := by
    intro c hc
    rw [String.toList_ofList, List.mem_append, List.mem_singleton] at hc
    rcases hc with hc | rfl
    · rcases hkept c hc with hc | hc
      · exact hplain c hc
      · exact (Trailer.blank hc .nil).plain c (List.mem_cons_self ..)
    · decide
  have htext : trim (field ++ String.ofList (added ++ ['>'])) =
      trim field ++ String.ofList (kept ++ ['>']) := by
    rw [trim_eq, trim_eq, String.toList_append, String.toList_ofList, htrim, String.ofList_append]
  intro heq
  have hlength := congrArg (fun s => s.toList.length) heq
  rw [cleanStr, cleanStr, htext, htools.decode_append _ _ hplain'] at hlength
  simp only [String.toList_ofList, String.toList_append, List.filter_append, List.length_append]
    at hlength
  have hmarker : ([('>' : Char)].filter fun c => !isControl c) = ['>'] := by decide
  rw [hmarker, List.length_singleton] at hlength
  omega

/-- Whether a marker behind the record is no loss: a relationship whose weight is 1 all the same. -/
def GraphTuple.WeighsOne [One ω] (tools : GraphTools ω) (marked : Bool) : GraphTuple → Prop
  | entity .. => False
  | relationship _ _ _ strength => marked = true ∨ (tools.parseWeight strength).getD 1 = 1

/-- The number in front of a parenthesis is not read. -/
theorem parseWeight_spill (htools : tools.Lawful) (strength : String) (gap : List Char)
    {after : List Char} (hafter : ¬ Blank after) :
    tools.parseWeight (strength ++ String.ofList (spill gap after)) = none := by
  refine htools.parseWeight _ ?_
  have hne : trimEndChars after ≠ [] := fun hnil => hafter (trimEndChars_eq_nil_iff.mp hnil)
  rw [spill, if_neg hne, String.toList_append, String.toList_ofList]
  simp

/-- A marker behind a record is no loss exactly when the record weighs one. -/
theorem row_eq_iff [One ω] (htools : tools.Lawful) (sourceId : String) (t : GraphTuple)
    {marked : Bool} {gap after front back : List Char} (hgap : Trailer gap)
    (hafter : Trailer after) (hmore : Trailer (front ++ '>' :: back)) (hback : Blank back)
    (hmarked : marked = false ↔ Blank after) :
    t.row tools sourceId (String.ofList (spill gap (after ++ (front ++ '>' :: back)))) =
        t.row tools sourceId (String.ofList (spill gap after)) ↔ t.WeighsOne tools marked := by
  cases t with
  | entity title entityType description =>
    obtain ⟨added, hadded, hplain⟩ := spill_append_marked hgap hafter hmore hback
    refine iff_of_false (fun heq => ?_) id
    have hdescription := congrArg EntityRecord.description (Sum.inl.inj heq)
    dsimp only at hdescription
    rw [hadded, String.ofList_append, ← String.append_assoc] at hdescription
    exact cleanStr_append_ne htools _ hplain hdescription
  | relationship source target description strength =>
    have hnotBlank : ¬ Blank (after ++ (front ++ '>' :: back)) := by
      intro hblank
      exact absurd (hblank '>' (by simp)) (by decide)
    have hweight := parseWeight_spill htools strength gap hnotBlank
    constructor
    · intro heq
      have hweights := congrArg RelationshipRecord.weight (Sum.inr.inj heq)
      dsimp only at hweights
      rw [hweight] at hweights
      cases marked with
      | true => exact Or.inl rfl
      | false =>
        rw [spill_of_blank (hmarked.mp rfl), String.ofList_nil, String.append_empty] at hweights
        exact Or.inr hweights.symm
    · intro hone
      have hweights : (tools.parseWeight (strength ++ String.ofList (spill gap after))).getD 1 =
          1 := by
        rcases hone with rfl | hone
        · have hnot : ¬ Blank after := fun hblank => nomatch hmarked.mpr hblank
          rw [parseWeight_spill htools strength gap hnot]
          rfl
        · by_cases hblank : Blank after
          · rw [spill_of_blank hblank, String.ofList_nil, String.append_empty]
            exact hone
          · rw [parseWeight_spill htools strength gap hblank]
            rfl
      rw [GraphTuple.row, GraphTuple.row, hweight, hweights]
      rfl

/-! ### Pieces that are put one behind the other -/

/-- The record of a piece. -/
def TuplePiece.tuple? : TuplePiece → Option GraphTuple
  | blank | marker => none
  | tuple t _ => some t

/-- **Nothing is lost where these pieces are put one behind the other.**  There is no record among
them, or one: then only white space stands in front of it, and behind it only white space, or
markers when the record weighs one. -/
def Whole [One ω] (tools : GraphTools ω) (pieces : List TuplePiece) : Prop :=
  (∀ piece ∈ pieces, piece.tuple? = none) ∨
    ∃ before t marked after, pieces = before ++ .tuple t marked :: after ∧
      (∀ piece ∈ before, piece = .blank) ∧ (∀ piece ∈ after, piece.tuple? = none) ∧
      (.marker ∈ after → t.WeighsOne tools marked)

section Whole

variable [One ω] {pieces : List TuplePiece} {t : GraphTuple} {marked : Bool}

theorem whole_blank_cons : Whole tools (.blank :: pieces) ↔ Whole tools pieces := by
  constructor
  · rintro (hnone | ⟨before, t, marked, after, heq, hbefore, hafter⟩)
    · exact Or.inl (List.forall_mem_cons.mp hnone).2
    · cases before with
      | nil => cases heq
      | cons piece before =>
        obtain ⟨-, rfl⟩ := List.cons.inj heq
        exact Or.inr ⟨before, t, marked, after, rfl, (List.forall_mem_cons.mp hbefore).2, hafter⟩
  · rintro (hnone | ⟨before, t, marked, after, rfl, hbefore, hafter⟩)
    · exact Or.inl (List.forall_mem_cons.mpr ⟨rfl, hnone⟩)
    · exact Or.inr ⟨.blank :: before, t, marked, after, rfl,
        List.forall_mem_cons.mpr ⟨rfl, hbefore⟩, hafter⟩

theorem whole_marker_cons :
    Whole tools (.marker :: pieces) ↔ ∀ piece ∈ pieces, piece.tuple? = none := by
  constructor
  · rintro (hnone | ⟨before, t, marked, after, heq, hbefore, hafter⟩)
    · exact (List.forall_mem_cons.mp hnone).2
    · cases before with
      | nil => cases heq
      | cons piece before =>
        obtain ⟨rfl, -⟩ := List.cons.inj heq
        exact absurd (hbefore _ (List.mem_cons_self ..)) (by decide)
  · intro hnone
    exact Or.inl (List.forall_mem_cons.mpr ⟨rfl, hnone⟩)

theorem whole_tuple_cons : Whole tools (.tuple t marked :: pieces) ↔
    (∀ piece ∈ pieces, piece.tuple? = none) ∧ (.marker ∈ pieces → t.WeighsOne tools marked) := by
  constructor
  · rintro (hnone | ⟨before, t', marked', after, heq, hbefore, hafter⟩)
    · have hself := (List.forall_mem_cons.mp hnone).1
      cases hself
    · cases before with
      | nil =>
        obtain ⟨hpiece, rfl⟩ := List.cons.inj heq
        cases hpiece
        exact hafter
      | cons piece before =>
        obtain ⟨rfl, -⟩ := List.cons.inj heq
        exact absurd (hbefore _ (List.mem_cons_self ..)) (by simp)
  · intro h
    exact Or.inr ⟨[], t, marked, pieces, rfl, by simp, h⟩

end Whole

/-! ### The texts of pieces -/

section Reads

variable {pieces : List TuplePiece} {texts : List String} {text : String} {t : GraphTuple}
  {marked : Bool}

/-- A text that trimming leaves a marker of. -/
theorem marker_reads (h : trim text = completionDelimiter) : ∃ before after, Blank before ∧
    Blank after ∧ text.toList = before ++ (completionDelimiter.toList ++ after) := by
  obtain ⟨before, after, htext, hbefore, hafter⟩ := exists_pad text.toList
  have hcore : trimChars text.toList = completionDelimiter.toList := by
    rw [← h, trim_eq, String.toList_ofList]
  rw [hcore] at htext
  exact ⟨before, after, hbefore, hafter, htext⟩

theorem not_blank_of_marker {before after : List Char} :
    ¬ Blank (before ++ (completionDelimiter.toList ++ after)) := by
  intro hblank
  have hmem : '>' ∈ before ++ (completionDelimiter.toList ++ after) := by
    refine List.mem_append_right _ (List.mem_append_left _ ?_)
    decide
  exact absurd (hblank '>' hmem) (by decide)

/-- Texts without a record are a trailer, which is blank when there is no marker. -/
theorem trailer_of_reads (h : List.Forall₂ TuplePiece.Reads pieces texts)
    (hnone : ∀ piece ∈ pieces, piece.tuple? = none) :
    Trailer (texts.flatMap String.toList) ∧
      (Blank (texts.flatMap String.toList) ↔ .marker ∉ pieces) := by
  induction h with
  | nil => exact ⟨.nil, by simp [Blank.nil]⟩
  | @cons piece text pieces texts hpiece _ ih =>
    obtain ⟨hself, hnone⟩ := List.forall_mem_cons.mp hnone
    obtain ⟨htrailer, hblank⟩ := ih hnone
    rw [List.flatMap_cons]
    cases piece with
    | blank =>
      have htext : Blank text.toList := trim_eq_empty_iff.mp hpiece
      refine ⟨(Trailer.of_blank htext).append htrailer, ?_⟩
      rw [List.mem_cons, not_or, ← hblank]
      constructor
      · intro hall
        exact ⟨by decide, fun c hc => hall c (List.mem_append_right _ hc)⟩
      · exact fun hrest => htext.append hrest.2
    | marker =>
      obtain ⟨before, after, hbefore, hafter, htext⟩ := marker_reads hpiece
      rw [htext]
      refine ⟨((Trailer.of_blank hbefore).append (.marker (.of_blank hafter))).append htrailer,
        iff_of_false ?_ (by simp)⟩
      intro hall
      exact not_blank_of_marker fun c hc => hall c (List.mem_append_left _ hc)
    | tuple t marked => cases hself

variable [One ω] (tools) (sourceId : String)

/-- The text of a record is read with what stands behind it. -/
theorem tuple_reads (h : TuplePiece.Reads (.tuple t marked) text) :
    ∃ gap after, Blank gap ∧ Trailer after ∧ (marked = false ↔ Blank after) ∧
      ∀ before more, Blank before → Trailer more →
        parseGraphTuple tools sourceId (String.ofList (before ++ (text.toList ++ more))) =
          some (t.row tools sourceId (String.ofList (spill gap (after ++ more)))) := by
  obtain ⟨front, inner, after, rfl, hfront, hfields, hafter⟩ := h
  rw [trim_eq_empty_iff] at hfront
  rw [← String.ofList_toList (s := inner)] at hfields
  obtain ⟨gap, hgap, hread⟩ := exists_spill tools sourceId hfields
  have htrailer : Trailer after.toList ∧ (marked = false ↔ Blank after.toList) := by
    cases marked with
    | false =>
      have hblank : Blank after.toList := trim_eq_empty_iff.mp hafter
      exact ⟨.of_blank hblank, iff_of_true rfl hblank⟩
    | true =>
      obtain ⟨before, back, hbefore, hback, htext⟩ := marker_reads hafter
      rw [htext]
      exact ⟨(Trailer.of_blank hbefore).append (.marker (.of_blank hback)),
        iff_of_false (by decide) not_blank_of_marker⟩
  refine ⟨gap, after.toList, hgap, htrailer.1, htrailer.2, fun before more hbefore hmore => ?_⟩
  rw [← hread (before ++ front.toList) (after.toList ++ more) (hbefore.append hfront)
    (htrailer.1.append hmore)]
  congr 2
  simp

/-- A piece without a record is read as nothing. -/
theorem parseGraphTuple_none {piece : TuplePiece} (h : piece.Reads text)
    (hnone : piece.tuple? = none) : parseGraphTuple tools sourceId text = none := by
  cases piece with
  | blank =>
    rw [← String.ofList_toList (s := text)]
    exact parseGraphTuple_blank tools sourceId (trim_eq_empty_iff.mp h)
  | marker =>
    obtain ⟨before, after, hbefore, -, htext⟩ := marker_reads h
    rw [← String.ofList_toList (s := text), htext]
    exact parseGraphTuple_marker tools sourceId hbefore after
  | tuple t marked => cases hnone

/-- There are as many rows as records. -/
theorem length_filterMap_parse (h : List.Forall₂ TuplePiece.Reads pieces texts) :
    (texts.filterMap (parseGraphTuple tools sourceId)).length =
      (pieces.filterMap TuplePiece.tuple?).length := by
  induction h with
  | nil => rfl
  | @cons piece text pieces texts hpiece _ ih =>
    cases hself : piece.tuple? with
    | none =>
      rw [List.filterMap_cons_none hself,
        List.filterMap_cons_none (parseGraphTuple_none tools sourceId hpiece hself), ih]
    | some t =>
      cases piece with
      | blank => cases hself
      | marker => cases hself
      | tuple t' marked =>
        obtain ⟨gap, after, -, -, -, hread⟩ := tuple_reads tools sourceId hpiece
        have hown := hread [] [] Blank.nil .nil
        rw [List.nil_append, List.append_nil, String.ofList_toList] at hown
        rw [List.filterMap_cons_some hself, List.filterMap_cons_some hown, List.length_cons,
          List.length_cons, ih]

end Reads

/-! ### One group of pieces -/

/-- The text of texts that are put one behind the other. -/
def joinTexts (texts : List String) : String := String.ofList (texts.flatMap String.toList)

section Group

variable [One ω] {pieces : List TuplePiece} {texts : List String} {before : List Char}
  (sourceId : String)

theorem length_toList_le {α : Type} (o : Option α) : o.toList.length ≤ 1 := by
  cases o <;> simp

/-- Texts that are put behind white space hold no record that is read, one record, or more than one
record, of which one at most is read. -/
theorem group_cases (htools : tools.Lawful) (h : List.Forall₂ TuplePiece.Reads pieces texts)
    (hbefore : Blank before) :
    (parseGraphTuple tools sourceId (String.ofList (before ++ texts.flatMap String.toList)) = none ∧
      (Whole tools pieces ↔ texts.filterMap (parseGraphTuple tools sourceId) = [])) ∨
    (∃ (t : GraphTuple) (suffix suffix' : String),
      parseGraphTuple tools sourceId (String.ofList (before ++ texts.flatMap String.toList)) =
        some (t.row tools sourceId suffix) ∧
      texts.filterMap (parseGraphTuple tools sourceId) = [t.row tools sourceId suffix'] ∧
      (Whole tools pieces ↔ t.row tools sourceId suffix = t.row tools sourceId suffix')) ∨
    (2 ≤ (texts.filterMap (parseGraphTuple tools sourceId)).length ∧ ¬ Whole tools pieces) := by
  induction h generalizing before with
  | nil =>
    rw [List.flatMap_nil, List.append_nil, parseGraphTuple_blank tools sourceId hbefore]
    exact Or.inl ⟨rfl, iff_of_true (Or.inl (by simp)) rfl⟩
  | @cons piece text pieces texts hpiece hpieces ih =>
    have hnone_iff : (∀ piece ∈ pieces, piece.tuple? = none) ↔
        texts.filterMap (parseGraphTuple tools sourceId) = [] := by
      rw [← List.length_eq_zero_iff, length_filterMap_parse tools sourceId hpieces,
        List.length_eq_zero_iff, List.filterMap_eq_nil_iff]
    rw [List.flatMap_cons]
    cases piece with
    | blank =>
      have htext : Blank text.toList := trim_eq_empty_iff.mp hpiece
      rw [whole_blank_cons, ← List.append_assoc,
        List.filterMap_cons_none (parseGraphTuple_none tools sourceId hpiece rfl)]
      exact ih (hbefore.append htext)
    | marker =>
      obtain ⟨front, after, hfront, -, htext⟩ := marker_reads hpiece
      refine Or.inl ⟨?_, ?_⟩
      · rw [← parseGraphTuple_marker tools sourceId (hbefore.append hfront)
          (after ++ texts.flatMap String.toList), htext]
        simp only [List.append_assoc]
      · rw [whole_marker_cons, hnone_iff,
          List.filterMap_cons_none (parseGraphTuple_none tools sourceId hpiece rfl)]
    | tuple t marked =>
      obtain ⟨gap, after, hgap, hafter, hmarked, hread⟩ := tuple_reads tools sourceId hpiece
      have hown := hread [] [] Blank.nil .nil
      rw [List.nil_append, List.append_nil, List.append_nil, String.ofList_toList] at hown
      rw [whole_tuple_cons, List.filterMap_cons_some hown]
      by_cases hnone : ∀ piece ∈ pieces, piece.tuple? = none
      · obtain ⟨htrailer, hblank⟩ := trailer_of_reads hpieces hnone
        refine Or.inr (Or.inl ⟨t, _, String.ofList (spill gap after),
          hread before _ hbefore htrailer, by rw [hnone_iff.mp hnone], ?_⟩)
        rcases htrailer.blank_or with hrest | ⟨front, back, heq, hback⟩
        · -- only white space stands behind the record
          rw [spill_append_blank hafter hrest]
          exact iff_of_true ⟨hnone, fun hmem => absurd hmem (hblank.mp hrest)⟩ rfl
        · have hmem : .marker ∈ pieces := by
            by_contra hmem
            have hall := hblank.mpr hmem
            rw [heq] at hall
            exact absurd (hall '>' (by simp)) (by decide)
          rw [heq] at htrailer ⊢
          rw [row_eq_iff htools sourceId t (.of_blank hgap) hafter htrailer hback hmarked]
          exact ⟨fun h => h.2 hmem, fun h => ⟨hnone, fun _ => h⟩⟩
      · refine Or.inr (Or.inr ⟨?_, fun h => hnone h.1⟩)
        have hne := mt hnone_iff.mpr hnone
        have hpos := List.length_pos_iff.mpr hne
        rw [List.length_cons]
        omega

/-- Put one behind the other, texts are read as they are one by one exactly when they are whole. -/
theorem whole_iff (htools : tools.Lawful) (h : List.Forall₂ TuplePiece.Reads pieces texts) :
    Whole tools pieces ↔ (parseGraphTuple tools sourceId (joinTexts texts)).toList =
      texts.filterMap (parseGraphTuple tools sourceId) := by
  rcases group_cases sourceId htools h Blank.nil with ⟨hread, hwhole⟩ |
    ⟨t, suffix, suffix', hread, hrows, hwhole⟩ | ⟨hlength, hwhole⟩
  · rw [joinTexts, ← List.nil_append (texts.flatMap _), hread, hwhole]
    exact eq_comm
  · rw [joinTexts, ← List.nil_append (texts.flatMap _), hread, hrows, hwhole, Option.toList_some,
      List.singleton_inj]
  · refine iff_of_false hwhole fun heq => ?_
    have hle := length_toList_le (parseGraphTuple tools sourceId (joinTexts texts))
    rw [heq] at hle
    omega

/-- Put one behind the other, texts are read as no more rows than one by one, and when they are read
as one row each way, the rows are of one kind. -/
theorem joined_rows_le (htools : tools.Lawful) (h : List.Forall₂ TuplePiece.Reads pieces texts) :
    (parseGraphTuple tools sourceId (joinTexts texts)).toList.length ≤
      (texts.filterMap (parseGraphTuple tools sourceId)).length ∧
    (parseGraphTuple tools sourceId (joinTexts texts)).toList.length ≤ 1 ∧
    ((parseGraphTuple tools sourceId (joinTexts texts)).toList.length =
        (texts.filterMap (parseGraphTuple tools sourceId)).length →
      (parseGraphTuple tools sourceId (joinTexts texts)).toList.map Sum.isLeft =
        (texts.filterMap (parseGraphTuple tools sourceId)).map Sum.isLeft) := by
  rcases group_cases sourceId htools h Blank.nil with ⟨hread, -⟩ |
    ⟨t, suffix, suffix', hread, hrows, -⟩ | ⟨hlength, -⟩
  · rw [joinTexts, ← List.nil_append (texts.flatMap _), hread, Option.toList_none]
    refine ⟨Nat.zero_le _, Nat.zero_le _, fun hlength => ?_⟩
    rw [List.length_nil, eq_comm, List.length_eq_zero_iff] at hlength
    rw [hlength]
  · rw [joinTexts, ← List.nil_append (texts.flatMap _), hread, hrows, Option.toList_some]
    refine ⟨le_refl _, le_refl _, fun _ => ?_⟩
    cases t <;> rfl
  · have hle := length_toList_le (parseGraphTuple tools sourceId (joinTexts texts))
    exact ⟨by omega, hle, fun heq => by omega⟩

end Group

/-! ### Responses -/

/-- A response that is a list of records, with markers or without: what stands between its record
delimiters are pieces. -/
structure TupleResponse where
  text : String
  pieces : List TuplePiece
  reads : List.Forall₂ TuplePiece.Reads pieces (split recordDelimiter text)

/-- Put a list behind groups: its first element goes to the last group. -/
def glue {α : Type} (groups : List (List α)) : List α → List (List α)
  | [] => groups
  | x :: xs => groups.dropLast ++ (groups.getLastD [] ++ [x]) :: xs.map fun y => [y]

/-- The pieces of responses that are put one behind the other: each piece of the joined text as the
pieces of responses it is made of. -/
def joinedPieces (responses : List TupleResponse) : List (List TuplePiece) :=
  responses.foldl (fun groups response => glue groups response.pieces) [[]]

/-- The text that accumulates. -/
def joinedText (responses : List TupleResponse) : String :=
  responses.foldl (fun output response => output ++ response.text) ""

theorem getLast?_ne_hash {piece : TuplePiece} {text : String} (h : piece.Reads text) :
    text.toList.getLast? ≠ some '#' := by
  intro hlast
  have hmem := List.mem_of_getLast? hlast
  cases piece with
  | blank => exact absurd (trim_eq_empty_iff.mp h '#' hmem) (by decide)
  | marker =>
    obtain ⟨before, after, hbefore, hafter, htext⟩ := marker_reads h
    rw [htext] at hmem
    exact ((Trailer.of_blank hbefore).append (.marker (.of_blank hafter))).hash_not_mem hmem
  | tuple t marked =>
    obtain ⟨before, inner, after, rfl, -, -, hafter⟩ := h
    have htrailer : Trailer after.toList := by
      cases marked with
      | false => exact .of_blank (trim_eq_empty_iff.mp hafter)
      | true =>
        obtain ⟨front, back, hfront, hback, htext⟩ := marker_reads hafter
        rw [htext]
        exact (Trailer.of_blank hfront).append (.marker (.of_blank hback))
    rw [String.toList_append, List.getLast?_append] at hlast
    cases hcases : after.toList.getLast? with
    | none =>
      rw [hcases, Option.none_or, String.toList_append] at hlast
      have hparen : (")" : String).toList = [')'] := by decide
      rw [hparen, List.getLast?_concat] at hlast
      exact absurd (Option.some.inj hlast) (by decide)
    | some c =>
      rw [hcases, Option.some_or] at hlast
      obtain rfl := Option.some.inj hlast
      exact htrailer.hash_not_mem (List.mem_of_getLast? hcases)

theorem getLast?_flatMap_ne_hash {pieces : List TuplePiece} {texts : List String}
    (h : List.Forall₂ TuplePiece.Reads pieces texts) :
    (texts.flatMap String.toList).getLast? ≠ some '#' := by
  induction h with
  | nil => simp
  | @cons piece text pieces texts hpiece _ ih =>
    rw [List.flatMap_cons, List.getLast?_append]
    cases hcases : (texts.flatMap String.toList).getLast? with
    | none =>
      rw [Option.none_or]
      exact getLast?_ne_hash hpiece
    | some c =>
      rw [hcases] at ih
      rwa [Option.some_or]

/-- The pieces of a text behind texts of pieces. -/
theorem split_append {pieces : List TuplePiece} {last : List String} {front : List String}
    {output text first : String} {rest : List String}
    (hlast : List.Forall₂ TuplePiece.Reads pieces last)
    (houtput : split recordDelimiter output = front ++ [joinTexts last])
    (htext : split recordDelimiter text = first :: rest) :
    split recordDelimiter (output ++ text) = front ++ joinTexts (last ++ [first]) :: rest := by
  have hchars : ∀ {s : String} {pieces : List String}, split recordDelimiter s = pieces →
      splitAtAll ['#', '#'] s.toList = pieces.map String.toList := by
    rintro s pieces rfl
    rw [split, recordDelimiter_toList, List.map_map]
    simp [Function.comp_def]
  have hxs := hchars houtput
  have hys := hchars htext
  rw [List.map_append, List.map_singleton, joinTexts, String.toList_ofList] at hxs
  have happend := splitAtAll_append_last hxs hys (by
    intro back hback hne hlength hstarts
    obtain ⟨c, rfl⟩ : ∃ c, back = [c] := by
      have hpos := List.length_pos_of_ne_nil hne
      rw [List.length_cons, List.length_singleton] at hlength
      exact List.length_eq_one_iff.mp (by omega)
    obtain ⟨rfl, -⟩ := List.cons_prefix_cons.mp hstarts
    obtain ⟨before, hbefore⟩ := hback
    refine getLast?_flatMap_ne_hash hlast ?_
    rw [← hbefore, List.getLast?_concat])
  rw [split, recordDelimiter_toList, String.toList_append, happend]
  simp [joinTexts, Function.comp_def, String.ofList_toList]

/-- The joined text has the joined pieces. -/
theorem joined_spec (responses : List TupleResponse) : ∃ groups : List (List String),
    List.Forall₂ (List.Forall₂ TuplePiece.Reads) (joinedPieces responses) groups ∧
    split recordDelimiter (joinedText responses) = groups.map joinTexts ∧
    groups.flatten = responses.flatMap (fun response => split recordDelimiter response.text) ∧
    groups ≠ [] := by
  induction responses using List.reverseRecOn with
  | nil =>
    refine ⟨[[]], .cons .nil .nil, ?_, rfl, List.cons_ne_nil _ _⟩
    have hempty : split recordDelimiter (String.ofList []) = [String.ofList []] := by
      rw [split, recordDelimiter_toList, String.toList_ofList, splitAtAll_of_not_occurs (by simp),
        List.map_singleton]
    exact hempty
  | append_singleton responses response ih =>
    obtain ⟨groups, hreads, hsplit, hflatten, hne⟩ := ih
    obtain ⟨front, last, rfl⟩ : ∃ front last, groups = front ++ [last] :=
      ⟨_, _, (List.dropLast_append_getLast hne).symm⟩
    obtain ⟨frontPieces, lastPieces, hjoined, hfront, hlast⟩ :
        ∃ frontPieces lastPieces, joinedPieces responses = frontPieces ++ [lastPieces] ∧
          List.Forall₂ (List.Forall₂ TuplePiece.Reads) frontPieces front ∧
          List.Forall₂ TuplePiece.Reads lastPieces last := by
      have hfront := List.forall₂_take_append _ front [last] hreads
      have hlast := List.forall₂_drop_append _ front [last] hreads
      obtain ⟨lastPieces, rest, hlast, hrest, hdrop⟩ := List.forall₂_cons_right_iff.mp hlast
      rw [List.forall₂_nil_right_iff] at hrest
      refine ⟨_, lastPieces, ?_, hfront, hlast⟩
      rw [← hrest, ← hdrop, List.take_append_drop]
    have hresponse := response.reads
    cases htexts : split recordDelimiter response.text with
    | nil =>
      rw [split, List.map_eq_nil_iff] at htexts
      exact absurd htexts (splitAtAll_ne_nil _)
    | cons first rest =>
      rw [htexts] at hresponse
      obtain ⟨piece, pieces, hpiece, hpieces, hall⟩ := List.forall₂_cons_right_iff.mp hresponse
      refine ⟨front ++ (last ++ [first]) :: rest.map fun text => [text], ?_, ?_, ?_, by simp⟩
      · have hglue : joinedPieces (responses ++ [response]) =
            frontPieces ++ (lastPieces ++ [piece]) :: pieces.map fun piece => [piece] := by
          rw [joinedPieces, List.foldl_append, List.foldl_cons, List.foldl_nil]
          show glue (joinedPieces responses) response.pieces = _
          rw [hjoined, hall, glue, List.dropLast_concat, List.getLastD_concat]
        rw [hglue]
        refine List.rel_append hfront (.cons (List.rel_append hlast (.cons hpiece .nil)) ?_)
        rw [List.forall₂_map_left_iff, List.forall₂_map_right_iff]
        exact hpieces.imp fun _ _ h => .cons h .nil
      · rw [joinedText, List.foldl_append, List.foldl_cons, List.foldl_nil]
        rw [List.map_append, List.map_singleton] at hsplit
        have happend := split_append hlast hsplit htexts
        rw [show responses.foldl (fun output response => output ++ response.text) "" =
          joinedText responses from rfl, happend]
        simp [joinTexts, Function.comp_def, String.ofList_toList]
      · rw [List.flatMap_append, ← hflatten, List.flatMap_singleton, htexts]
        simp [List.flatten_append, List.append_assoc, ← List.flatMap_def]

/-- What the responses give when each is parsed on its own. -/
def parseEach [One ω] (tools : GraphTools ω) (responses : List TupleResponse) (sourceId : String) :
    GraphExtraction ω where
  entities := responses.flatMap fun response =>
    (parseGraphTuples tools response.text sourceId).entities
  relationships := responses.flatMap fun response =>
    (parseGraphTuples tools response.text sourceId).relationships

/-- **The joined text is read as the responses are, one by one, exactly when all its pieces are
whole.** -/
theorem parseGraphTuples_joined_iff [One ω] (htools : tools.Lawful)
    (responses : List TupleResponse) (sourceId : String) :
    parseGraphTuples tools (joinedText responses) sourceId =
        parseEach tools responses sourceId ↔
      ∀ pieces ∈ joinedPieces responses, Whole tools pieces := by
  obtain ⟨groups, hreads, hsplit, hflatten, -⟩ := joined_spec responses
  -- the rows of the joined text, and those of the responses, by groups
  have hjoined : (split recordDelimiter (joinedText responses)).filterMap
      (parseGraphTuple tools sourceId) =
        groups.flatMap fun texts => (parseGraphTuple tools sourceId (joinTexts texts)).toList := by
    rw [hsplit, List.filterMap_map, List.filterMap_eq_flatMap_toList]
    simp only [Function.comp_apply]
  have heach : responses.flatMap (fun response =>
      (split recordDelimiter response.text).filterMap (parseGraphTuple tools sourceId)) =
        groups.flatMap fun texts => texts.filterMap (parseGraphTuple tools sourceId) := by
    rw [← List.filterMap_flatMap, ← hflatten, List.filterMap_flatten, List.flatMap_def]
  have hleft : ∀ extraction : GraphExtraction ω, extraction = parseEach tools responses sourceId ↔
      extraction.entities = (groups.flatMap fun texts =>
        texts.filterMap (parseGraphTuple tools sourceId)).filterMap Sum.getLeft? ∧
      extraction.relationships = (groups.flatMap fun texts =>
        texts.filterMap (parseGraphTuple tools sourceId)).filterMap Sum.getRight? := by
    intro extraction
    rw [← heach, List.filterMap_flatMap, List.filterMap_flatMap]
    cases extraction
    simp only [parseEach, parseGraphTuples, GraphExtraction.mk.injEq]
  have hiff : (∀ pieces ∈ joinedPieces responses, Whole tools pieces) ↔ ∀ texts ∈ groups,
      (parseGraphTuple tools sourceId (joinTexts texts)).toList =
        texts.filterMap (parseGraphTuple tools sourceId) := by
    constructor
    · intro hwhole texts htexts
      obtain ⟨pieces, hpieces, hread⟩ := forall₂_exists_left hreads htexts
      exact (whole_iff sourceId htools hread).mp (hwhole pieces hpieces)
    · intro hrows pieces hpieces
      obtain ⟨texts, htexts, hread⟩ := forall₂_exists_right hreads hpieces
      exact (whole_iff sourceId htools hread).mpr (hrows texts htexts)
  rw [hiff, hleft, parseGraphTuples, hjoined]
  refine blocks_eq_iff (fun texts htexts => ?_) fun texts htexts => ?_
  · obtain ⟨pieces, -, hread⟩ := forall₂_exists_left hreads htexts
    exact (joined_rows_le sourceId htools hread).1
  · obtain ⟨pieces, -, hread⟩ := forall₂_exists_left hreads htexts
    exact (joined_rows_le sourceId htools hread).2.2

end GraphLoom.Llm
