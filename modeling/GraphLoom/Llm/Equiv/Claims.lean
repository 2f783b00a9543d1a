import GraphLoom.Llm.Equiv.WhiteSpace

/-!
# Claims are read back

What the claim prompt asks for is read back into the same claims (`parseClaimTuples_render`).  A
text of records, some of which may be blank, is split into them (`split_records`); a record loses
its parentheses and is split into its fields (`parseClaim_render`); and the marker at the end is
taken off with the white space in front of the text.
-/

namespace GraphLoom.Llm

open Foundation

/-! ### Claims -/

/-- A claim as the prompt asks for it. -/
structure Claim where
  subject : String
  object : String
  claimType : String
  status : String
  startDate : String
  endDate : String
  description : String
  source : String
deriving DecidableEq, Repr

namespace Claim

def fields (claim : Claim) : List String :=
  [claim.subject, claim.object, claim.claimType, claim.status, claim.startDate, claim.endDate,
    claim.description, claim.source]

/-- The fields between delimiters. -/
def inner (claim : Claim) : List Char :=
  ['<', '|', '>'].intercalate (claim.fields.map String.toList)

def render (claim : Claim) : List Char := '(' :: (claim.inner ++ [')'])

def record (claim : Claim) : ClaimRecord where
  subjectId := claim.subject
  objectId := claim.object
  claimType := claim.claimType
  status := claim.status
  startDate := claim.startDate
  endDate := claim.endDate
  description := claim.description
  sourceText := claim.source

/-- The fields are trimmed texts, free of the delimiters. -/
def Ok (claim : Claim) : Prop :=
  ∀ field ∈ claim.fields, trim field = field ∧ ¬ ['<', '|', '>'] <:+: field.toList ∧
    ¬ ['#', '#'] <:+: field.toList

end Claim

variable {claim : Claim}

/-- The text starts with its first field or with a delimiter, and ends so. -/
theorem Claim.inner_eq (claim : Claim) :
    ∃ middle, claim.inner = claim.subject.toList ++ '<' :: (middle ++ '>' :: claim.source.toList) := by
  refine ⟨'|' :: '>' :: (['<', '|', '>'].intercalate ((claim.fields.drop 1).take 6 |>.map
    String.toList) ++ ['<', '|']), ?_⟩
  simp [Claim.inner, Claim.fields]

theorem Claim.inner_trimmed (h : claim.Ok) : IsTrimmed claim.inner := by
  have hfirst := isTrimmed_of_trim (h claim.subject (by simp [Claim.fields])).1
  have hlast := isTrimmed_of_trim (h claim.source (by simp [Claim.fields])).1
  obtain ⟨middle, hinner⟩ := claim.inner_eq
  rw [hinner]
  constructor
  · intro c hc
    cases hsubject : claim.subject.toList with
    | nil =>
      rw [hsubject] at hc
      obtain rfl := Option.some.inj hc
      decide
    | cons x xs =>
      rw [hsubject] at hc hfirst
      obtain rfl := Option.some.inj hc
      exact hfirst.head x rfl
  · intro c hc
    rw [List.getLast?_append, List.getLast?_cons, List.getLast?_append, List.getLast?_cons] at hc
    cases hsource : claim.source.toList.getLast? with
    | none =>
      rw [hsource] at hc
      simp at hc
      subst hc
      decide
    | some x =>
      rw [hsource] at hc
      simp at hc
      subst hc
      exact hlast.last x hsource

theorem Claim.render_trimmed (claim : Claim) : IsTrimmed claim.render := by
  constructor
  · intro c hc
    obtain rfl := Option.some.inj hc
    decide
  · intro c hc
    have hlast : claim.render.getLast? = some ')' := by
      rw [Claim.render, ← List.cons_append, List.getLast?_append]
      rfl
    rw [hlast] at hc
    obtain rfl := Option.some.inj hc
    decide

/-- A record loses the parentheses around it. -/
theorem trimClaimRecord_render (h : claim.Ok) {before after : List Char} (hbefore : Blank before)
    (hafter : Blank after) :
    trimClaimRecord (String.ofList (before ++ (claim.render ++ after))) =
      String.ofList claim.inner := by
  have hrecord : trim (String.ofList (before ++ (claim.render ++ after))) =
      String.ofList (['('] ++ (claim.inner ++ [')'])) := by
    rw [trim_eq, String.toList_ofList, trimChars_pad hbefore claim.render_trimmed hafter]
    rfl
  have hinner : trim (String.ofList claim.inner) = String.ofList claim.inner := by
    have hpad := trimChars_pad Blank.nil (Claim.inner_trimmed h) Blank.nil
    rw [List.nil_append, List.append_nil] at hpad
    rw [trim_eq, String.toList_ofList, hpad]
  have hopen : stripPrefix "(" (String.ofList (['('] ++ (claim.inner ++ [')']))) =
      some (String.ofList (claim.inner ++ [')'])) := stripPrefix_ofList ['('] _
  have hclose : stripSuffix ")" (String.ofList (claim.inner ++ [')'])) =
      some (String.ofList claim.inner) := stripSuffix_ofList _ [')']
  unfold trimClaimRecord
  simp only [hrecord, hopen, Option.getD_some, hclose, hinner]

/-- The fields are split from each other. -/
theorem split_inner (h : claim.Ok) :
    split tupleDelimiter (String.ofList claim.inner) = claim.fields := by
  unfold split
  rw [tupleDelimiter_toList, String.toList_ofList, Claim.inner,
    splitAtAll_intercalate (List.cons_ne_nil _ _) (by simp [Claim.fields]), List.map_map]
  · simp [Function.comp_def, String.ofList_toList]
  · intro piece hpiece
    obtain ⟨field, hfield, rfl⟩ := List.mem_map.mp hpiece
    have hfree := (h field hfield).2.1
    exact ⟨tupleDelimiter_separated hfree, hfree⟩

theorem parseClaim_render (h : claim.Ok) {before after : List Char} (hbefore : Blank before)
    (hafter : Blank after) :
    parseClaim (String.ofList (before ++ (claim.render ++ after))) = some claim.record := by
  have hfields : ∀ index field, claim.fields[index]? = some field →
      pullField claim.fields index = some field := by
    intro index field hfield
    rw [pullField, hfield, Option.map_some, (h field (List.mem_of_getElem? hfield)).1]
  obtain ⟨middle, hinner⟩ := claim.inner_eq
  have hempty : (String.ofList claim.inner).isEmpty = false := by
    rw [hinner]
    simp
  -- the marker has no delimiter
  have hmarker : String.ofList claim.inner ≠ completionDelimiter := by
    intro heq
    have hoccurs : ['<', '|', '>'] <:+: claim.inner :=
      ⟨claim.subject.toList, ['<', '|', '>'].intercalate ((claim.fields.drop 1).map String.toList),
        by simp [Claim.inner, Claim.fields]⟩
    rw [← String.toList_inj, String.toList_ofList] at heq
    rw [heq] at hoccurs
    exact absurd hoccurs (by decide)
  unfold parseClaim
  rw [trimClaimRecord_render h hbefore hafter]
  simp only [hempty, hmarker, Bool.false_eq_true, or_self, if_false, split_inner h]
  rw [hfields 0 _ rfl, hfields 1 _ rfl, hfields 2 _ rfl, hfields 3 _ rfl, hfields 4 _ rfl,
    hfields 5 _ rfl, hfields 6 _ rfl, hfields 7 _ rfl]
  rfl

theorem parseClaim_blank {blank : List Char} (h : Blank blank) :
    parseClaim (String.ofList blank) = none := by
  have hpad := trimChars_pad h IsTrimmed.nil Blank.nil
  rw [List.append_nil, List.append_nil] at hpad
  have htrim : trim (String.ofList blank) = "" := by
    rw [trim_eq, String.toList_ofList, hpad]
  have hrecord : trimClaimRecord (String.ofList blank) = "" := by
    unfold trimClaimRecord
    rw [htrim]
    decide
  unfold parseClaim
  rw [hrecord]
  simp

/-! ### Records -/

/-- What stands between two record delimiters: white space, and a claim or nothing. -/
structure Piece where
  before : List Char
  claim : Option Claim
  after : List Char

namespace Piece

def text (piece : Piece) : List Char :=
  piece.before ++ (((piece.claim.map Claim.render).getD []) ++ piece.after)

structure Ok (piece : Piece) : Prop where
  before : Blank piece.before
  claim : ∀ claim, piece.claim = some claim → claim.Ok
  after : Blank piece.after

end Piece

/-- The text of pieces, between record delimiters. -/
def renderPieces (pieces : List Piece) : List Char := ['#', '#'].intercalate (pieces.map Piece.text)

theorem renderPieces_cons (piece : Piece) {pieces : List Piece} (h : pieces ≠ []) :
    renderPieces (piece :: pieces) = piece.text ++ (['#', '#'] ++ renderPieces pieces) := by
  rw [renderPieces, List.map_cons, List.intercalate_cons_of_ne_nil (by simpa using h),
    List.append_assoc, renderPieces]

theorem not_occurs_of_blank {blank : List Char} (h : Blank blank) : ¬ ['#', '#'] <:+: blank := by
  intro hoccurs
  have hmem : '#' ∈ blank := hoccurs.subset (List.mem_cons_self ..)
  exact absurd (h '#' hmem) (by decide)

theorem Claim.inner_not_occurs (h : claim.Ok) : ¬ ['#', '#'] <:+: claim.inner := by
  have hnil : ¬ ['#', '#'] <:+: ([] : List Char) := not_occurs_of_blank Blank.nil
  have hfields : ∀ fields : List String, (∀ field ∈ fields, ¬ ['#', '#'] <:+: field.toList) →
      ¬ ['#', '#'] <:+: ['<', '|', '>'].intercalate (fields.map String.toList) := by
    intro fields hfree
    induction fields with
    | nil => exact hnil
    | cons field fields ih =>
      have hfield := hfree field (List.mem_cons_self ..)
      have hrest := ih fun f hf => hfree f (List.mem_cons_of_mem _ hf)
      cases fields with
      | nil => rwa [List.map_cons, List.map_nil, List.intercalate_singleton]
      | cons next fields =>
        rw [List.map_cons, List.map_cons, List.intercalate_cons_cons, List.append_assoc]
        refine not_occurs_append_cons (by decide) hfield ?_
        have hthird := not_occurs_append_cons (by decide : '>' ∉ ['#', '#']) hnil hrest
        exact not_occurs_append_cons (by decide : '|' ∉ ['#', '#']) hnil hthird
  exact hfields claim.fields fun field hfield => (h field hfield).2.2

variable {piece : Piece} {pieces : List Piece}

theorem Piece.Ok.not_occurs (h : piece.Ok) : ¬ ['#', '#'] <:+: piece.text := by
  obtain ⟨before, claim, after⟩ := piece
  cases claim with
  | none => exact not_occurs_of_blank (h.before.append h.after)
  | some claim =>
    have hinner := Claim.inner_not_occurs (h.claim claim rfl)
    have htext : (Piece.mk before (some claim) after).text =
        before ++ '(' :: (claim.inner ++ ')' :: after) := by
      simp [Piece.text, Claim.render]
    rw [htext]
    exact not_occurs_append_cons (by decide) (not_occurs_of_blank h.before)
      (not_occurs_append_cons (by decide) hinner (not_occurs_of_blank h.after))

/-- A piece does not end with what the record delimiter begins with. -/
theorem Piece.Ok.separated (h : piece.Ok) : Separated ['#', '#'] piece.text := by
  refine separated_of_not_occurs h.not_occurs fun back hsuffix hback hlength hstarts => ?_
  match back, hback, hlength with
  | [x], _, _ =>
    obtain ⟨rfl, -⟩ := List.cons_prefix_cons.mp hstarts
    have hlast : piece.text.getLast? = some '#' := by
      obtain ⟨front, hfront⟩ := hsuffix
      rw [← hfront, List.getLast?_append]
      rfl
    obtain ⟨before, claim, after⟩ := piece
    have hafter := h.after
    cases hcases : after.getLast? with
    | some c =>
      have hc : c = '#' := by
        rw [Piece.text, List.getLast?_append, List.getLast?_append] at hlast
        dsimp only at hlast
        rw [hcases] at hlast
        exact Option.some.inj hlast
      have hmem := List.mem_of_getLast? hcases
      rw [hc] at hmem
      exact absurd (hafter '#' hmem) (by decide)
    | none =>
      obtain rfl := List.getLast?_eq_none_iff.mp hcases
      cases claim with
      | none =>
        have hmem := List.mem_of_getLast? hlast
        have hblank : Blank (Piece.mk before none []).text := h.before.append h.after
        exact absurd (hblank '#' hmem) (by decide)
      | some claim =>
        have htext : (Piece.mk before (some claim) []).text =
            (before ++ '(' :: claim.inner) ++ [')'] := by
          simp [Piece.text, Claim.render]
        rw [htext, List.getLast?_append] at hlast
        exact absurd (Option.some.inj hlast) (by decide)

theorem Piece.Ok.parseClaim (h : piece.Ok) :
    parseClaim (String.ofList piece.text) = piece.claim.map Claim.record := by
  obtain ⟨before, claim, after⟩ := piece
  have hbefore : Blank before := h.before
  have hafter : Blank after := h.after
  cases claim with
  | none => exact parseClaim_blank (hbefore.append hafter)
  | some claim => exact parseClaim_render (h.claim claim rfl) hbefore hafter

/-- The text of pieces is split into them, and each is read as its claim. -/
theorem split_records (hne : pieces ≠ []) (hok : ∀ piece ∈ pieces, piece.Ok) :
    (split recordDelimiter (String.ofList (renderPieces pieces))).filterMap parseClaim =
      pieces.filterMap fun piece => piece.claim.map Claim.record := by
  have hsplit : split recordDelimiter (String.ofList (renderPieces pieces)) =
      pieces.map fun piece => String.ofList piece.text := by
    unfold split renderPieces
    rw [recordDelimiter_toList, String.toList_ofList,
      splitAtAll_intercalate (List.cons_ne_nil _ _) (by simpa using hne), List.map_map]
    · rfl
    · intro text htext
      obtain ⟨piece, hpiece, rfl⟩ := List.mem_map.mp htext
      exact ⟨(hok piece hpiece).separated, (hok piece hpiece).not_occurs⟩
  rw [hsplit, List.filterMap_map]
  refine List.filterMap_congr fun piece hpiece => ?_
  rw [Function.comp_apply]
  exact (hok piece hpiece).parseClaim

/-! ### The marker -/

/-- White space in front of pieces is white space in front of pieces with the same claims. -/
theorem exists_pieces_dropWhile (hne : pieces ≠ []) (hok : ∀ piece ∈ pieces, piece.Ok) :
    ∃ pieces', pieces' ≠ [] ∧ (∀ piece ∈ pieces', piece.Ok) ∧
      (renderPieces pieces).dropWhile isWhiteSpace = renderPieces pieces' ∧
      pieces'.map Piece.claim = pieces.map Piece.claim := by
  cases pieces with
  | nil => exact absurd rfl hne
  | cons piece rest =>
    obtain ⟨before, claim, after⟩ := piece
    have h := hok _ (List.mem_cons_self ..)
    have hrest : ∀ piece ∈ rest, piece.Ok := fun piece hp => hok piece (List.mem_cons_of_mem _ hp)
    have hbefore : Blank before := h.before
    have hafter : Blank after := h.after
    -- the text behind the first piece starts with a delimiter, when there is one
    have htail : ∃ tail, (∀ piece : Piece, renderPieces (piece :: rest) = piece.text ++ tail) ∧
        ∀ c, tail.head? = some c → isWhiteSpace c = false := by
      cases rest with
      | nil => exact ⟨[], fun piece => by simp [renderPieces], fun _ hc => nomatch hc⟩
      | cons next rest =>
        refine ⟨_, fun piece => renderPieces_cons piece (List.cons_ne_nil _ _), fun c hc => ?_⟩
        obtain rfl := Option.some.inj hc
        decide
    obtain ⟨tail, hrender, hhead⟩ := htail
    cases claim with
    | none =>
      refine ⟨⟨[], none, []⟩ :: rest, List.cons_ne_nil _ _, ?_, ?_, rfl⟩
      · rintro piece hpiece
        rcases List.mem_cons.mp hpiece with rfl | hpiece
        · exact ⟨Blank.nil, fun _ hc => (nomatch hc), Blank.nil⟩
        · exact hrest piece hpiece
      · have hblank : Blank (Piece.mk before none after).text := hbefore.append hafter
        rw [hrender, hrender, dropWhile_blank hblank, dropWhile_of_head hhead]
        rfl
    | some claim =>
      refine ⟨⟨[], some claim, after⟩ :: rest, List.cons_ne_nil _ _, ?_, ?_, rfl⟩
      · rintro piece hpiece
        rcases List.mem_cons.mp hpiece with rfl | hpiece
        · exact ⟨Blank.nil, h.claim, hafter⟩
        · exact hrest piece hpiece
      · have htext : (Piece.mk before (some claim) after).text =
            before ++ (Piece.mk [] (some claim) after).text := by simp [Piece.text]
        rw [hrender, hrender, htext, List.append_assoc, dropWhile_blank hbefore]
        refine dropWhile_of_head fun c hc => ?_
        obtain rfl := Option.some.inj hc
        decide

/-- Pieces end with white space behind a parenthesis or a delimiter, or are white space. -/
theorem renderPieces_last (hne : pieces ≠ []) (hok : ∀ piece ∈ pieces, piece.Ok) :
    Blank (renderPieces pieces) ∨ ∃ front c after, renderPieces pieces = front ++ c :: after ∧
      (c = ')' ∨ c = '#') ∧ Blank after := by
  induction pieces with
  | nil => exact absurd rfl hne
  | cons piece rest ih =>
    have h := hok piece (List.mem_cons_self ..)
    cases rest with
    | nil =>
      obtain ⟨before, claim, after⟩ := piece
      cases claim with
      | none =>
        left
        rw [renderPieces, List.map_singleton, List.intercalate_singleton]
        exact h.before.append h.after
      | some claim =>
        refine .inr ⟨before ++ '(' :: claim.inner, ')', after, ?_, .inl rfl, h.after⟩
        simp [renderPieces, Piece.text, Claim.render]
    | cons next rest =>
      have hrender : renderPieces (piece :: next :: rest) =
          (piece.text ++ ['#']) ++ '#' :: renderPieces (next :: rest) := by
        rw [renderPieces_cons piece (List.cons_ne_nil _ _), List.append_assoc]
        rfl
      right
      rcases ih (List.cons_ne_nil _ _) fun p hp => hok p (List.mem_cons_of_mem _ hp) with
        hblank | ⟨front, c, after, hrest, hc, hafter⟩
      · exact ⟨_, '#', _, hrender, .inr rfl, hblank⟩
      · refine ⟨(piece.text ++ ['#']) ++ '#' :: front, c, after, ?_, hc, hafter⟩
        rw [hrender, hrest]
        simp

/-- Without a marker nothing is taken off. -/
theorem stripSuffix_pieces (hne : pieces ≠ []) (hok : ∀ piece ∈ pieces, piece.Ok) :
    stripSuffix completionDelimiter (trim (String.ofList (renderPieces pieces))) = none := by
  cases hstrip : stripSuffix completionDelimiter (trim (String.ofList (renderPieces pieces))) with
  | none => rfl
  | some text =>
    have hmarker := stripSuffix_eq_some_iff.mp hstrip
    rw [← String.toList_inj, String.toList_append, completionDelimiter_toList, trim_eq,
      String.toList_ofList, String.toList_ofList, ← List.append_assoc] at hmarker
    exfalso
    rcases renderPieces_last hne hok with hblank | ⟨front, c, after, hrender, hc, hafter⟩
    · have hnil := trimChars_pad hblank IsTrimmed.nil Blank.nil
      rw [List.append_nil, List.append_nil, hmarker] at hnil
      simp at hnil
    · have hspace : isWhiteSpace c = false := by
        rcases hc with rfl | rfl
        · decide
        · decide
      obtain ⟨front', hlast⟩ := trimChars_last front hspace hafter
      rw [hrender, hlast] at hmarker
      obtain ⟨-, hchar⟩ := List.append_inj' hmarker rfl
      obtain rfl := (List.cons.inj hchar).1
      rcases hc with hc | hc
      · exact absurd hc (by decide)
      · exact absurd hc (by decide)

/-- The marker is taken off, with the white space behind it and in front of the text. -/
theorem stripSuffix_marker (text : List Char) {trailing : List Char} (htrailing : Blank trailing) :
    stripSuffix completionDelimiter
        (trim (String.ofList (text ++ (completionDelimiter.toList ++ trailing)))) =
      some (String.ofList (text.dropWhile isWhiteSpace)) := by
  have hdrop : (text ++ (completionDelimiter.toList ++ trailing)).dropWhile isWhiteSpace =
      text.dropWhile isWhiteSpace ++ (completionDelimiter.toList ++ trailing) := by
    have hhead : (completionDelimiter.toList ++ trailing).dropWhile isWhiteSpace =
        completionDelimiter.toList ++ trailing := by
      refine dropWhile_of_head fun c hc => ?_
      obtain rfl := Option.some.inj hc
      decide
    rw [List.dropWhile_append]
    split
    · next hempty =>
      rw [List.isEmpty_iff.mp hempty, hhead]
      rfl
    · rfl
  have hreverse : (text.dropWhile isWhiteSpace ++ (completionDelimiter.toList ++ trailing)).reverse =
      trailing.reverse ++ (text.dropWhile isWhiteSpace ++ completionDelimiter.toList).reverse := by
    simp
  have hhead : ∀ c, (text.dropWhile isWhiteSpace ++ completionDelimiter.toList).reverse.head? =
      some c → isWhiteSpace c = false := by
    intro c hc
    rw [List.head?_reverse, completionDelimiter_toList, ← List.append_assoc,
      List.getLast?_append] at hc
    obtain rfl := Option.some.inj hc
    decide
  rw [stripSuffix_eq_some_iff, trim_eq, String.toList_ofList, trimChars, hdrop, hreverse,
    dropWhile_blank htrailing.reverse, dropWhile_of_head hhead, List.reverse_reverse,
    String.ofList_append, String.ofList_toList]

/-! ### Claims -/

/-- A claim with white space around it. -/
structure PaddedClaim where
  before : List Char
  claim : Claim
  after : List Char

def PaddedClaim.toPiece (padded : PaddedClaim) : Piece :=
  ⟨padded.before, some padded.claim, padded.after⟩

structure PaddedClaim.Ok (padded : PaddedClaim) : Prop where
  before : Blank padded.before
  claim : padded.claim.Ok
  after : Blank padded.after

/-- The claims, joined with record delimiters. -/
def renderClaims (claims : List PaddedClaim) : List Char :=
  renderPieces (claims.map PaddedClaim.toPiece)

/-- What follows the claims: nothing, a delimiter and the marker, or white space such as a line
break and the marker. -/
inductive Ending where
  | nothing
  | delimiter (space trailing : List Char)
  | lineBreak (space trailing : List Char)

namespace Ending

def text : Ending → List Char
  | nothing => []
  | delimiter space trailing =>
    ['#', '#'] ++ space ++ completionDelimiter.toList ++ trailing
  | lineBreak space trailing => space ++ completionDelimiter.toList ++ trailing

def Ok : Ending → Prop
  | nothing => True
  | delimiter space trailing => Blank space ∧ Blank trailing
  | lineBreak space trailing => Blank space ∧ Blank trailing

end Ending

/-- White space behind pieces is part of the last one. -/
theorem exists_pieces_append (hok : ∀ piece ∈ pieces, piece.Ok) {space : List Char}
    (hspace : Blank space) :
    ∃ pieces', pieces' ≠ [] ∧ (∀ piece ∈ pieces', piece.Ok) ∧
      renderPieces pieces ++ space = renderPieces pieces' ∧
      pieces'.filterMap Piece.claim = pieces.filterMap Piece.claim := by
  induction pieces with
  | nil =>
    refine ⟨[⟨[], none, space⟩], List.cons_ne_nil _ _, ?_, by simp [renderPieces, Piece.text], rfl⟩
    intro piece hpiece
    rw [List.mem_singleton.mp hpiece]
    exact ⟨Blank.nil, fun _ hc => (nomatch hc), hspace⟩
  | cons piece rest ih =>
    have h := hok piece (List.mem_cons_self ..)
    cases rest with
    | nil =>
      refine ⟨[⟨piece.before, piece.claim, piece.after ++ space⟩], List.cons_ne_nil _ _, ?_,
        by simp [renderPieces, Piece.text], rfl⟩
      intro piece' hpiece
      rw [List.mem_singleton.mp hpiece]
      exact ⟨h.before, h.claim, h.after.append hspace⟩
    | cons next rest =>
      obtain ⟨pieces', hne, hok', hrender, hclaims⟩ :=
        ih fun p hp => hok p (List.mem_cons_of_mem _ hp)
      refine ⟨piece :: pieces', List.cons_ne_nil _ _, ?_, ?_, ?_⟩
      · intro p hp
        rcases List.mem_cons.mp hp with rfl | hp
        · exact h
        · exact hok' p hp
      · rw [renderPieces_cons piece (List.cons_ne_nil _ _), renderPieces_cons piece hne,
          List.append_assoc, List.append_assoc, hrender]
      · rw [List.filterMap_cons, List.filterMap_cons, hclaims]

/-- A delimiter behind pieces begins a blank one. -/
theorem renderPieces_delimiter (hne : pieces ≠ []) (space : List Char) :
    renderPieces pieces ++ (['#', '#'] ++ space) = renderPieces (pieces ++ [⟨[], none, space⟩]) := by
  induction pieces with
  | nil => exact absurd rfl hne
  | cons piece rest ih =>
    cases rest with
    | nil => simp [renderPieces, Piece.text]
    | cons next rest =>
      have hrest := ih (List.cons_ne_nil _ _)
      have hcons := renderPieces_cons piece (List.append_ne_nil_of_left_ne_nil
        (List.cons_ne_nil next rest) [⟨[], none, space⟩])
      rw [renderPieces_cons piece (List.cons_ne_nil _ _), List.append_assoc, List.append_assoc, hrest]
      exact hcons.symm

/-- Pieces, and pieces with the marker behind them, are read as their claims. -/
theorem parseClaimTuples_pieces (hne : pieces ≠ []) (hok : ∀ piece ∈ pieces, piece.Ok) :
    parseClaimTuples (String.ofList (renderPieces pieces)) =
        (pieces.filterMap Piece.claim).map Claim.record ∧
      ∀ trailing, Blank trailing →
        parseClaimTuples
            (String.ofList (renderPieces pieces ++ (completionDelimiter.toList ++ trailing))) =
          (pieces.filterMap Piece.claim).map Claim.record := by
  constructor
  · unfold parseClaimTuples
    rw [stripSuffix_pieces hne hok, Option.getD_none, split_records hne hok, List.map_filterMap]
  · intro trailing htrailing
    obtain ⟨pieces', hne', hok', hdrop, hclaims⟩ := exists_pieces_dropWhile hne hok
    have hsame : pieces.filterMap Piece.claim = pieces'.filterMap Piece.claim := by
      have hid := congrArg (List.filterMap id) hclaims
      rw [List.filterMap_map, List.filterMap_map] at hid
      exact hid.symm
    unfold parseClaimTuples
    rw [stripSuffix_marker _ htrailing, Option.getD_some, hdrop, split_records hne' hok', hsame,
      List.map_filterMap]

/-- **`parse_claim_tuples` undoes the format of the claim prompt**: claims that are joined with
record delimiters and white space, with each of the endings, are read back with the same fields, in
the same order, and no other. -/
theorem parseClaimTuples_render (claims : List PaddedClaim) (hclaims : ∀ padded ∈ claims, padded.Ok)
    (ending : Ending) (hending : ending.Ok) :
    parseClaimTuples (String.ofList (renderClaims claims ++ ending.text)) =
      claims.map fun padded => padded.claim.record := by
  have hok : ∀ piece ∈ claims.map PaddedClaim.toPiece, piece.Ok := by
    intro piece hpiece
    obtain ⟨padded, hpadded, rfl⟩ := List.mem_map.mp hpiece
    have h := hclaims padded hpadded
    refine ⟨h.before, fun claim hclaim => ?_, h.after⟩
    obtain rfl := Option.some.inj hclaim
    exact h.claim
  have hrecords : ((claims.map PaddedClaim.toPiece).filterMap Piece.claim).map Claim.record =
      claims.map fun padded => padded.claim.record := by
    rw [List.filterMap_map]
    induction claims with
    | nil => rfl
    | cons padded claims ih =>
      have hrest := ih (fun p hp => hclaims p (List.mem_cons_of_mem _ hp))
        (fun p hp => hok p (List.mem_cons_of_mem _ hp))
      rw [List.map_cons, ← hrest]
      rfl
  rw [← hrecords]
  unfold renderClaims
  cases ending with
  | nothing =>
    obtain ⟨pieces, hne, hok', hrender, hsame⟩ := exists_pieces_append hok Blank.nil
    rw [← hsame]
    show parseClaimTuples (String.ofList (_ ++ [])) = _
    rw [hrender]
    exact (parseClaimTuples_pieces hne hok').1
  | delimiter space trailing =>
    obtain ⟨pieces, hne, hok', hrender, hsame⟩ := exists_pieces_append hok Blank.nil
    have hok'' : ∀ piece ∈ pieces ++ [Piece.mk [] none space], piece.Ok := by
      intro piece hpiece
      rcases List.mem_append.mp hpiece with hpiece | hpiece
      · exact hok' piece hpiece
      · rw [List.mem_singleton.mp hpiece]
        exact ⟨Blank.nil, fun _ hc => (nomatch hc), hending.1⟩
    have htext : renderPieces (claims.map PaddedClaim.toPiece) ++
        (Ending.delimiter space trailing).text =
          renderPieces (pieces ++ [Piece.mk [] none space]) ++
            (completionDelimiter.toList ++ trailing) := by
      rw [← renderPieces_delimiter hne, ← hrender]
      simp [Ending.text]
    have hsame' : (pieces ++ [Piece.mk [] none space]).filterMap Piece.claim =
        (claims.map PaddedClaim.toPiece).filterMap Piece.claim := by
      rw [List.filterMap_append, ← hsame]
      exact List.append_nil _
    rw [htext, ← hsame']
    exact (parseClaimTuples_pieces (by simp) hok'').2 trailing hending.2
  | lineBreak space trailing =>
    obtain ⟨pieces, hne, hok', hrender, hsame⟩ := exists_pieces_append hok hending.1
    have htext : renderPieces (claims.map PaddedClaim.toPiece) ++
        (Ending.lineBreak space trailing).text =
          renderPieces pieces ++ (completionDelimiter.toList ++ trailing) := by
      rw [← hrender]
      simp [Ending.text]
    rw [htext, ← hsame]
    exact (parseClaimTuples_pieces hne hok').2 trailing hending.2

/-- Two claims in lines of their own, of which one has fields with parentheses, and the marker in
the last line. -/
theorem parseClaimTuples_render_sample :
    let first : Claim := ⟨"(A)", "", "FRAUD", "TRUE", "NONE", "NONE", "a (b) c", "#1)"⟩
    let second : Claim := ⟨"B", "NONE", "FRAUD", "FALSE", "NONE", "NONE", "d", "e"⟩
    parseClaimTuples (String.ofList (renderClaims
        [⟨[], first, ['\n']⟩, ⟨['\n'], second, []⟩] ++ (Ending.lineBreak ['\n'] []).text)) =
      [first.record, second.record] := by
  intro first second
  have hblank : Blank ['\n'] := by
    intro c hc
    rw [List.mem_singleton.mp hc]
    decide
  have hfirst : first.Ok := by
    unfold Claim.Ok
    decide +kernel
  have hsecond : second.Ok := by
    unfold Claim.Ok
    decide +kernel
  refine parseClaimTuples_render [⟨[], first, ['\n']⟩, ⟨['\n'], second, []⟩] ?_
    (.lineBreak ['\n'] []) ⟨hblank, Blank.nil⟩
  intro padded hpadded
  simp only [List.mem_cons, List.not_mem_nil, or_false] at hpadded
  rcases hpadded with rfl | rfl
  · exact ⟨Blank.nil, hfirst, hblank⟩
  · exact ⟨hblank, hsecond, Blank.nil⟩

end GraphLoom.Llm
