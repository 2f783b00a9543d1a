import GraphLoom.Llm.Equiv.WhiteSpace

/-!
# Pieces of the graph output

The text between two record delimiters of a response is blank, the completion marker, or one record,
which the marker may follow (`TuplePiece.Reads`).  Texts of such pieces that stand one behind the
other are read as at most one record: a marker in front hides the record (`parseGraphTuple_marker`),
and markers behind it become part of its last field (`parseGraphTuple_tuple`).
-/

namespace GraphLoom.Llm

open Foundation

variable {ω : Type}

/-! ### Records and pieces -/

/-- A record as the prompt asks for it. -/
inductive GraphTuple where
  | entity (title entityType description : String)
  | relationship (source target description strength : String)
deriving DecidableEq, Repr

namespace GraphTuple

/-- The fields in front of the last one. -/
def front : GraphTuple → List String
  | entity title entityType _ => ["\"entity\"", title, entityType]
  | relationship source target description _ => ["\"relationship\"", source, target, description]

/-- The last field. -/
def last : GraphTuple → String
  | entity _ _ description => description
  | relationship _ _ _ strength => strength

/-- The fields, with a text behind the last one. -/
def fieldsWith (suffix : String) (t : GraphTuple) : List String := t.front ++ [t.last ++ suffix]

/-- What the record is read as, with a text behind the last field. -/
def row [One ω] (tools : GraphTools ω) (sourceId suffix : String) :
    GraphTuple → EntityRecord ⊕ RelationshipRecord ω
  | entity title entityType description => .inl {
      title := cleanStr tools (tools.toUppercase title)
      entityType := cleanStr tools (tools.toUppercase entityType)
      description := cleanStr tools (description ++ suffix)
      sourceId }
  | relationship source target description strength => .inr {
      source := cleanStr tools (tools.toUppercase source)
      target := cleanStr tools (tools.toUppercase target)
      description := cleanStr tools description
      sourceId
      weight := (tools.parseWeight (strength ++ suffix)).getD 1 }

end GraphTuple

/-- What stands between two record delimiters of a response. -/
inductive TuplePiece where
  | blank
  | marker
  -- a record, with the marker behind it or without
  | tuple (tuple : GraphTuple) (marked : Bool)
deriving DecidableEq, Repr

/-- The text is that of the piece. -/
def TuplePiece.Reads : TuplePiece → String → Prop
  | blank, text => trim text = ""
  | marker, text => trim text = completionDelimiter
  | tuple t marked, text => ∃ before inner after, text = before ++ "(" ++ inner ++ ")" ++ after ∧
      trim before = "" ∧ split tupleDelimiter (trim inner) = t.fieldsWith "" ∧
      trim after = if marked then completionDelimiter else ""

/-! ### Texts behind a record -/

/-- A text of white space and completion markers. -/
inductive Trailer : List Char → Prop
  | nil : Trailer []
  | blank {c : Char} {rest : List Char} (h : isWhiteSpace c = true) (hrest : Trailer rest) :
      Trailer (c :: rest)
  | marker {rest : List Char} (hrest : Trailer rest) :
      Trailer (completionDelimiter.toList ++ rest)

namespace Trailer

variable {cs ds : List Char}

theorem of_blank (h : Blank cs) : Trailer cs := by
  induction cs with
  | nil => exact .nil
  | cons c cs ih =>
    exact .blank (h c (List.mem_cons_self ..)) (ih fun d hd => h d (List.mem_cons_of_mem _ hd))

variable (h : Trailer cs)
include h

theorem append (h' : Trailer ds) : Trailer (cs ++ ds) := by
  induction h with
  | nil => exact h'
  | blank h _ ih => exact .blank h ih
  | marker _ ih =>
    rw [List.append_assoc]
    exact .marker ih

/-- There is no field delimiter. -/
theorem not_occurs : ¬ ['<', '|', '>'] <:+: cs := by
  induction h with
  | nil => simp
  | @blank c rest h _ ih =>
    rw [List.infix_cons_iff]
    rintro (hstarts | hoccurs)
    · obtain ⟨rfl, -⟩ := List.cons_prefix_cons.mp hstarts
      exact absurd h (by decide)
    · exact ih hoccurs
  | @marker rest _ ih =>
    have hmarker : completionDelimiter.toList =
        ['<', '|', 'C', 'O', 'M', 'P', 'L', 'E', 'T', 'E', '|', '>'] := by
      decide
    rw [hmarker]
    simp [List.infix_cons_iff, List.cons_prefix_cons, ih]

theorem mem_cases {c : Char} (hc : c ∈ cs) :
    isWhiteSpace c = true ∨ c ∈ completionDelimiter.toList := by
  induction h with
  | nil => cases hc
  | blank h _ ih =>
    rcases List.mem_cons.mp hc with rfl | hc
    · exact Or.inl h
    · exact ih hc
  | marker _ ih =>
    rcases List.mem_append.mp hc with hc | hc
    · exact Or.inr hc
    · exact ih hc

/-- No character belongs to an HTML entity. -/
theorem plain : ∀ c ∈ cs, c ≠ '&' ∧ c ≠ ';' := by
  intro c hc
  have hall : ∀ c ∈ completionDelimiter.toList, c ≠ '&' ∧ c ≠ ';' :=
    List.all_iff_forall_prop.mp (by decide)
  rcases h.mem_cases hc with hwhite | hmem
  · constructor
    · rintro rfl
      exact absurd hwhite (by decide)
    · rintro rfl
      exact absurd hwhite (by decide)
  · exact hall c hmem

/-- No character belongs to a record delimiter. -/
theorem hash_not_mem : '#' ∉ cs := by
  intro hc
  rcases h.mem_cases hc with hwhite | hmem
  · exact absurd hwhite (by decide)
  · exact absurd hmem (by decide)

/-- A trailer is blank or ends with a marker. -/
theorem blank_or : Blank cs ∨ ∃ front back, cs = front ++ '>' :: back ∧ Blank back := by
  induction h with
  | nil => exact Or.inl Blank.nil
  | @blank c rest h _ ih =>
    rcases ih with hblank | ⟨front, back, rfl, hback⟩
    · exact Or.inl (List.forall_mem_cons.mpr ⟨h, hblank⟩)
    · exact Or.inr ⟨c :: front, back, rfl, hback⟩
  | @marker rest _ ih =>
    right
    rcases ih with hblank | ⟨front, back, rfl, hback⟩
    · refine ⟨"<|COMPLETE|".toList, rest, ?_, hblank⟩
      rw [completionDelimiter_toList, List.append_assoc]
      rfl
    · exact ⟨completionDelimiter.toList ++ front, back, by rw [List.append_assoc], hback⟩

end Trailer

/-- A text without the white space at its end. -/
def trimEndChars (cs : List Char) : List Char :=
  (cs.reverse.dropWhile isWhiteSpace).reverse

theorem trimEndChars_eq_nil_iff {cs : List Char} : trimEndChars cs = [] ↔ Blank cs := by
  rw [trimEndChars, List.reverse_eq_nil_iff, List.dropWhile_eq_nil_iff]
  simp only [List.mem_reverse]
  exact Iff.rfl

theorem trimEndChars_append {front back : List Char} {c : Char} (hc : isWhiteSpace c = false)
    (hback : Blank back) : trimEndChars (front ++ c :: back) = front ++ [c] := by
  have hreverse : (front ++ c :: back).reverse = back.reverse ++ (c :: front.reverse) := by simp
  rw [trimEndChars, hreverse, dropWhile_blank hback.reverse,
    List.dropWhile_cons_of_neg (by simp [hc])]
  simp

/-- What a text behind a record adds to the last field of the record, with the white space in front
of the parenthesis. -/
def spill (gap after : List Char) : List Char :=
  if trimEndChars after = [] then [] else gap ++ ')' :: trimEndChars after

theorem spill_of_blank {gap after : List Char} (h : Blank after) : spill gap after = [] :=
  if_pos (trimEndChars_eq_nil_iff.mpr h)

theorem spill_marked (gap : List Char) {front back : List Char} (hback : Blank back) :
    spill gap (front ++ '>' :: back) = gap ++ ')' :: (front ++ ['>']) := by
  rw [spill, trimEndChars_append (by decide) hback, if_neg (by simp)]

/-- White space behind a trailer changes nothing. -/
theorem spill_append_blank {gap after more : List Char} (hafter : Trailer after)
    (hmore : Blank more) : spill gap (after ++ more) = spill gap after := by
  rcases hafter.blank_or with hblank | ⟨front, back, rfl, hback⟩
  · rw [spill_of_blank hblank, spill_of_blank (hblank.append hmore)]
  · rw [spill_marked gap hback, List.append_assoc, List.cons_append,
      spill_marked gap (hback.append hmore)]

/-- A marker behind a trailer adds a text that ends with it. -/
theorem spill_append_marked {gap after front back : List Char} (hgap : Trailer gap)
    (hafter : Trailer after) (hmore : Trailer (front ++ '>' :: back)) (hback : Blank back) :
    ∃ added, spill gap (after ++ (front ++ '>' :: back)) = spill gap after ++ (added ++ ['>']) ∧
      ∀ c ∈ added, c ≠ '&' ∧ c ≠ ';' := by
  have hfront : ∀ c ∈ front, c ≠ '&' ∧ c ≠ ';' := fun c hc =>
    hmore.plain c (List.mem_append_left _ hc)
  rw [← List.append_assoc, spill_marked gap hback]
  rcases hafter.blank_or with hblank | ⟨front', back', rfl, hback'⟩
  · refine ⟨gap ++ ')' :: (after ++ front), ?_, fun c hc => ?_⟩
    · rw [spill_of_blank hblank]
      simp
    · rw [List.mem_append, List.mem_cons, List.mem_append] at hc
      rcases hc with hc | rfl | hc | hc
      · exact hgap.plain c hc
      · decide
      · exact hafter.plain c hc
      · exact hfront c hc
  · refine ⟨back' ++ front, ?_, fun c hc => ?_⟩
    · rw [spill_marked gap hback']
      simp
    · rcases List.mem_append.mp hc with hc | hc
      · exact (Trailer.of_blank hback').plain c hc
      · exact hfront c hc

/-! ### Reading a record -/

section Read

variable [One ω] (tools : GraphTools ω) (sourceId : String)

theorem split_of_not_occurs {cs : List Char} (h : ¬ ['<', '|', '>'] <:+: cs) :
    split tupleDelimiter (String.ofList cs) = [String.ofList cs] := by
  rw [split, tupleDelimiter_toList, String.toList_ofList, splitAtAll_of_not_occurs h,
    List.map_singleton]

/-- A record whose fields are these is read as the row of them. -/
theorem parseGraphTuple_of_fields {raw suffix : String} {t : GraphTuple}
    (h : split tupleDelimiter (trimTupleRecord raw) = t.fieldsWith suffix) :
    parseGraphTuple tools sourceId raw = some (t.row tools sourceId suffix) := by
  have hne : ¬ ((trimTupleRecord raw).isEmpty = true ∨ trimTupleRecord raw = completionDelimiter) := by
    have hlength : 1 < (split tupleDelimiter (trimTupleRecord raw)).length := by
      rw [h]
      cases t <;> simp [GraphTuple.fieldsWith, GraphTuple.front]
    rintro (hempty | hmarker)
    · rw [String.isEmpty_iff] at hempty
      rw [hempty, ← String.ofList_nil, split_of_not_occurs (by simp)] at hlength
      exact absurd hlength (lt_irrefl 1)
    · have hmarkerOccurs := (Trailer.marker .nil).not_occurs
      rw [List.append_nil] at hmarkerOccurs
      rw [hmarker, ← String.ofList_toList (s := completionDelimiter),
        split_of_not_occurs hmarkerOccurs] at hlength
      exact absurd hlength (lt_irrefl 1)
  unfold parseGraphTuple
  dsimp only
  rw [if_neg hne, h]
  cases t with
  | entity title entityType description => rfl
  | relationship source target description strength => rfl

theorem parseGraphTuple_of_empty {raw : String} (h : trimTupleRecord raw = "") :
    parseGraphTuple tools sourceId raw = none := by
  unfold parseGraphTuple
  dsimp only
  rw [h]
  exact if_pos (Or.inl rfl)

/-- White space is read as nothing. -/
theorem parseGraphTuple_blank {cs : List Char} (h : Blank cs) :
    parseGraphTuple tools sourceId (String.ofList cs) = none := by
  refine parseGraphTuple_of_empty tools sourceId ?_
  have htrim : trim (String.ofList cs) = "" := trim_eq_empty_iff.mpr (by rwa [String.toList_ofList])
  rw [trimTupleRecord, trimClaimRecord, htrim]
  decide

end Read

theorem trim_pad {before core after : List Char} (hbefore : Blank before) (hcore : IsTrimmed core)
    (hafter : Blank after) :
    trim (String.ofList (before ++ (core ++ after))) = String.ofList core := by
  rw [trim_eq, String.toList_ofList, trimChars_pad hbefore hcore hafter]

/-- A text between two characters that are not white space. -/
theorem isTrimmed_between {first last : Char} (hfirst : isWhiteSpace first = false)
    (hlast : isWhiteSpace last = false) (middle : List Char) :
    IsTrimmed (first :: (middle ++ [last])) := by
  constructor
  · intro c hc
    obtain rfl := Option.some.inj hc
    exact hfirst
  · intro c hc
    rw [← List.cons_append, List.getLast?_concat] at hc
    obtain rfl := Option.some.inj hc
    exact hlast

theorem stripPrefix_ne {c d : Char} (h : c ≠ d) (rest : List Char) :
    stripPrefix (String.ofList [c]) (String.ofList (d :: rest)) = none := by
  unfold stripPrefix
  rw [if_neg]
  rw [String.toList_ofList, String.toList_ofList]
  intro hp
  exact h (List.cons_prefix_cons.mp hp).1

theorem stripSuffix_ne {c d : Char} (h : c ≠ d) (front : List Char) :
    stripSuffix (String.ofList [c]) (String.ofList (front ++ [d])) = none := by
  unfold stripSuffix
  rw [if_neg]
  rw [String.toList_ofList, String.toList_ofList]
  rintro ⟨rest, hrest⟩
  have hlast := congrArg List.getLast? hrest
  rw [List.getLast?_concat, List.getLast?_concat] at hlast
  exact h (Option.some.inj hlast)

/-- A text behind the fields goes to the last one, when it begins with no character of the
delimiter. -/
theorem split_fields_append {t : GraphTuple} {core : List Char}
    (h : split tupleDelimiter (String.ofList core) = t.fieldsWith "") {c : Char}
    {rest : List Char} (hc : c ≠ '|' ∧ c ≠ '>') (hrest : ¬ ['<', '|', '>'] <:+: c :: rest) :
    split tupleDelimiter (String.ofList (core ++ c :: rest)) =
      t.fieldsWith (String.ofList (c :: rest)) := by
  have hfields : splitAtAll ['<', '|', '>'] core =
      t.front.map String.toList ++ [t.last.toList] := by
    have hmap := congrArg (List.map String.toList) h
    rw [split, tupleDelimiter_toList, String.toList_ofList, List.map_map] at hmap
    simpa [GraphTuple.fieldsWith, Function.comp_def] using hmap
  have happend := splitAtAll_append_last hfields (splitAtAll_of_not_occurs hrest) (by
    intro back _ hback hlength hstarts
    match back, hback, hlength with
    | [x], _, _ =>
      obtain ⟨-, hsecond⟩ := List.cons_prefix_cons.mp hstarts
      exact hc.1 (List.cons_prefix_cons.mp hsecond).1.symm
    | [x, y], _, _ =>
      obtain ⟨-, hsecond⟩ := List.cons_prefix_cons.mp hstarts
      obtain ⟨-, hthird⟩ := List.cons_prefix_cons.mp hsecond
      exact hc.2 (List.cons_prefix_cons.mp hthird).1.symm)
  rw [split, tupleDelimiter_toList, String.toList_ofList, happend]
  simp [GraphTuple.fieldsWith, Function.comp_def, String.ofList_toList]

/-- **A record is read with what stands behind it.**  The text behind the record counts to its last
field, unless it is blank. -/
theorem exists_spill [One ω] (tools : GraphTools ω) (sourceId : String) {t : GraphTuple}
    {inner : List Char}
    (hfields : split tupleDelimiter (trim (String.ofList inner)) = t.fieldsWith "") :
    ∃ gap, Blank gap ∧ ∀ before after, Blank before → Trailer after →
      parseGraphTuple tools sourceId (String.ofList (before ++ '(' :: (inner ++ ')' :: after))) =
        some (t.row tools sourceId (String.ofList (spill gap after))) := by
  obtain ⟨front, gap, hinner, hfront, hgap⟩ := exists_pad inner
  have hcore := isTrimmed_trimChars inner
  generalize hcoreEq : trimChars inner = core at hinner hcore
  have htrimInner : trim (String.ofList inner) = String.ofList core := by
    rw [trim_eq, String.toList_ofList, hcoreEq]
  rw [htrimInner] at hfields
  refine ⟨gap, hgap, fun before after hbefore hafter => parseGraphTuple_of_fields tools sourceId ?_⟩
  rcases hafter.blank_or with hblank | ⟨tail, back, rfl, hback⟩
  · rw [spill_of_blank hblank]
    have hrecord : trim (String.ofList (before ++ '(' :: (inner ++ ')' :: after))) =
        String.ofList ('(' :: (inner ++ [')'])) := by
      have hparens : IsTrimmed ('(' :: (inner ++ [')'])) :=
        isTrimmed_between (by decide) (by decide) inner
      rw [← trim_pad hbefore hparens hblank]
      simp
    have hopen : stripPrefix "(" (String.ofList ('(' :: (inner ++ [')']))) =
        some (String.ofList (inner ++ [')'])) := stripPrefix_ofList ['('] _
    have hclose : stripSuffix ")" (String.ofList (inner ++ [')'])) = some (String.ofList inner) :=
      stripSuffix_ofList _ [')']
    have htuple : trimTupleRecord (String.ofList (before ++ '(' :: (inner ++ ')' :: after))) =
        String.ofList core := by
      unfold trimTupleRecord trimClaimRecord
      simp only [hrecord, hopen, Option.getD_some, hclose, htrimInner]
    rw [htuple]
    exact hfields
  · rw [spill_marked gap hback]
    have hrecord : trim (String.ofList (before ++ '(' :: (inner ++ ')' :: (tail ++ '>' :: back)))) =
        String.ofList ('(' :: ((inner ++ ')' :: tail) ++ ['>'])) := by
      have hparens : IsTrimmed ('(' :: ((inner ++ ')' :: tail) ++ ['>'])) :=
        isTrimmed_between (by decide) (by decide) _
      rw [← trim_pad hbefore hparens hback]
      simp
    have hopen : stripPrefix "(" (String.ofList ('(' :: ((inner ++ ')' :: tail) ++ ['>']))) =
        some (String.ofList ((inner ++ ')' :: tail) ++ ['>'])) := stripPrefix_ofList ['('] _
    have hclose : stripSuffix ")" (String.ofList ((inner ++ ')' :: tail) ++ ['>'])) = none :=
      stripSuffix_ne (by decide) _
    -- behind the fields stand white space, the parenthesis and the text up to the last marker
    have hcoreNe : core ≠ [] := by
      rintro rfl
      have hlength := congrArg List.length hfields
      rw [split_of_not_occurs (by simp)] at hlength
      cases t <;> simp [GraphTuple.fieldsWith, GraphTuple.front] at hlength
    have htrimmed : IsTrimmed (core ++ (gap ++ ')' :: (tail ++ ['>']))) := by
      constructor
      · intro c hc
        refine hcore.head c ?_
        rwa [List.head?_append_of_ne_nil _ hcoreNe] at hc
      · intro c hc
        rw [List.getLast?_append, List.getLast?_append, List.getLast?_cons,
          List.getLast?_concat] at hc
        obtain rfl := Option.some.inj hc
        decide
    have htext : inner ++ ')' :: tail ++ ['>'] =
        front ++ ((core ++ (gap ++ ')' :: (tail ++ ['>']))) ++ []) := by
      rw [hinner]
      simp
    have htuple : trimTupleRecord
        (String.ofList (before ++ '(' :: (inner ++ ')' :: (tail ++ '>' :: back)))) =
        String.ofList (core ++ (gap ++ ')' :: (tail ++ ['>']))) := by
      unfold trimTupleRecord trimClaimRecord
      simp only [hrecord, hopen, Option.getD_some, hclose, Option.getD_none]
      rw [htext, trim_pad hfront htrimmed Blank.nil]
    have htail : ¬ ['<', '|', '>'] <:+: tail ++ ['>'] := fun hoccurs =>
      hafter.not_occurs (hoccurs.trans ⟨[], back, by simp⟩)
    have hrest : ¬ ['<', '|', '>'] <:+: gap ++ ')' :: (tail ++ ['>']) :=
      not_occurs_append_cons (by decide) (Trailer.of_blank hgap).not_occurs htail
    rw [htuple]
    cases gap with
    | nil => exact split_fields_append hfields (by decide) hrest
    | cons c gap =>
      have hwhite := hgap c (List.mem_cons_self ..)
      have hc : c ≠ '|' ∧ c ≠ '>' := by
        constructor
        · rintro rfl
          exact absurd hwhite (by decide)
        · rintro rfl
          exact absurd hwhite (by decide)
      exact split_fields_append hfields hc hrest

/-! ### A marker in front -/

/-- Trimming keeps a marker in front. -/
theorem trim_marker {before : List Char} (hbefore : Blank before) (rest : List Char) :
    ∃ rest', trim (String.ofList (before ++ (completionDelimiter.toList ++ rest))) =
      String.ofList (completionDelimiter.toList ++ rest') := by
  have hmarker := completionDelimiter_toList
  have hfirst : completionDelimiter.toList = '<' :: ("|COMPLETE|".toList ++ ['>']) := by decide
  obtain ⟨front, after, hrest, hfront, hafter⟩ := exists_pad rest
  by_cases hblank : trimChars rest = []
  · refine ⟨[], ?_⟩
    have htrimmed : IsTrimmed completionDelimiter.toList := by
      rw [hfirst]
      exact isTrimmed_between (by decide) (by decide) _
    rw [List.append_nil, trim_pad hbefore htrimmed (trimChars_eq_nil_iff.mp hblank)]
  · refine ⟨front ++ trimChars rest, ?_⟩
    have htrimmed : IsTrimmed (completionDelimiter.toList ++ (front ++ trimChars rest)) := by
      constructor
      · intro c hc
        rw [hfirst, List.cons_append] at hc
        obtain rfl := Option.some.inj hc
        decide
      · intro c hc
        refine (isTrimmed_trimChars rest).last c ?_
        rwa [List.getLast?_append_of_ne_nil _ (by simp [hblank]),
          List.getLast?_append_of_ne_nil _ hblank] at hc
    have htext : before ++ (completionDelimiter.toList ++ rest) =
        before ++ ((completionDelimiter.toList ++ (front ++ trimChars rest)) ++ after) := by
      nth_rewrite 1 [hrest]
      simp
    rw [htext, trim_pad hbefore htrimmed hafter]

/-- **A marker hides what stands behind it.** -/
theorem parseGraphTuple_marker [One ω] (tools : GraphTools ω) (sourceId : String)
    {before : List Char} (hbefore : Blank before) (rest : List Char) :
    parseGraphTuple tools sourceId
      (String.ofList (before ++ (completionDelimiter.toList ++ rest))) = none := by
  have hfirst : completionDelimiter.toList = '<' :: '|' :: 'C' :: "OMPLETE|>".toList := by decide
  obtain ⟨rest₁, htrim⟩ := trim_marker hbefore rest
  have hopen : stripPrefix "(" (String.ofList (completionDelimiter.toList ++ rest₁)) = none := by
    rw [hfirst]
    exact stripPrefix_ne (by decide) _
  -- what a parenthesis at the end is taken from starts with the marker, too
  obtain ⟨rest₂, hclose⟩ : ∃ rest₂,
      (stripSuffix ")" (String.ofList (completionDelimiter.toList ++ rest₁))).getD
        (String.ofList (completionDelimiter.toList ++ rest₁)) =
      String.ofList (completionDelimiter.toList ++ rest₂) := by
    rcases List.eq_nil_or_concat rest₁ with rfl | ⟨front, last, rfl⟩
    · refine ⟨[], ?_⟩
      have hnone : stripSuffix ")" (String.ofList ("<|COMPLETE|".toList ++ ['>'])) = none :=
        stripSuffix_ne (by decide) _
      rw [List.append_nil, completionDelimiter_toList, hnone]
      rfl
    · rw [List.concat_eq_append, ← List.append_assoc]
      by_cases hlast : last = ')'
      · refine ⟨front, ?_⟩
        have hsome : stripSuffix ")"
            (String.ofList ((completionDelimiter.toList ++ front) ++ [')'])) =
            some (String.ofList (completionDelimiter.toList ++ front)) := stripSuffix_ofList _ [')']
        rw [hlast, hsome]
        rfl
      · refine ⟨front ++ [last], ?_⟩
        have hnone : stripSuffix ")"
            (String.ofList ((completionDelimiter.toList ++ front) ++ [last])) = none :=
          stripSuffix_ne (Ne.symm hlast) _
        rw [hnone, ← List.append_assoc]
        rfl
  obtain ⟨rest₃, htrim'⟩ := trim_marker Blank.nil rest₂
  rw [List.nil_append] at htrim'
  have htuple : trimTupleRecord (String.ofList (before ++ (completionDelimiter.toList ++ rest))) =
      String.ofList (completionDelimiter.toList ++ rest₃) := by
    unfold trimTupleRecord trimClaimRecord
    simp only [htrim, hopen, Option.getD_none, hclose, htrim']
  -- the first field begins as the marker does
  obtain ⟨piece, pieces, hsplit⟩ : ∃ piece pieces,
      split tupleDelimiter (String.ofList (completionDelimiter.toList ++ rest₃)) =
        String.ofList ('<' :: piece) :: pieces := by
    rw [split, tupleDelimiter_toList, String.toList_ofList, hfirst, List.cons_append, splitAtAll,
      if_neg (by simp [List.cons_prefix_cons])]
    cases splitAtAll ['<', '|', '>'] _ with
    | nil => exact ⟨_, _, rfl⟩
    | cons piece pieces => exact ⟨_, _, rfl⟩
  unfold parseGraphTuple
  dsimp only
  rw [htuple, hsplit]
  split
  · rfl
  · split
    · next heq =>
      have hquote := congrArg String.toList (List.cons.inj heq).1
      rw [String.toList_ofList] at hquote
      exact absurd (List.cons.inj (hquote.trans (by decide :
        "\"entity\"".toList = '\"' :: "entity\"".toList))).1 (by decide)
    · next heq =>
      have hquote := congrArg String.toList (List.cons.inj heq).1
      rw [String.toList_ofList] at hquote
      exact absurd (List.cons.inj (hquote.trans (by decide :
        "\"relationship\"".toList = '\"' :: "relationship\"".toList))).1 (by decide)
    · rfl

end GraphLoom.Llm
