import Mathlib.Data.List.Induction
import Mathlib.Data.List.TakeWhile
import GraphLoom.Prompts.Equiv.Pieces

/-!
# The conversion of format strings

* `scanGraphragFormat_eq_ok`: the scanner accepts the lists of pieces and nothing else.
* `containsGraphragKnownRootField_of_hasKnownField`: a known field that is not escaped is found.
* `convertGraphragFormatSyntax_source`: a list of pieces with a known field becomes the template
  `convertPieces`.
-/

namespace GraphLoom.Prompts

open GraphLoom.Foundation

/-! ### Escaping the delimiters of the engine -/

variable {c : Char}

section Escape

variable (rest : List Char)

theorem escapeTeraDelimiters_open : escapeTeraDelimiters ('{' :: '{' :: rest) =
    stringTag ['{', '{'] ++ escapeTeraDelimiters rest := by
  simp [escapeTeraDelimiters, stringTag, replace_pair_cons_cons, replace_pair_cons_of_ne]

theorem escapeTeraDelimiters_percent : escapeTeraDelimiters ('{' :: '%' :: rest) =
    stringTag ['{', '%'] ++ escapeTeraDelimiters rest := by
  simp [escapeTeraDelimiters, stringTag, replace_pair_cons_cons, replace_pair_cons_of_ne]

theorem escapeTeraDelimiters_hash : escapeTeraDelimiters ('{' :: '#' :: rest) =
    stringTag ['{', '#'] ++ escapeTeraDelimiters rest := by
  simp [escapeTeraDelimiters, stringTag, replace_pair_cons_cons, replace_pair_cons_of_ne]

/-- A character that starts no delimiter stays: what is put in for the text after it does not begin
with the second character of a delimiter. -/
theorem escapeTeraDelimiters_cons {rest : List Char} (h : opensTag (c :: rest) = false) :
    escapeTeraDelimiters (c :: rest) = c :: escapeTeraDelimiters rest := by
  by_cases hc : c = '{'
  · subst hc
    have hhead : rest.head? ≠ some '{' ∧ rest.head? ≠ some '%' ∧ rest.head? ≠ some '#' := by
      cases rest with
      | nil => simp
      | cons d rest =>
        simp only [opensTag, Bool.or_eq_false_iff, beq_eq_false_iff_ne] at h
        simp [h]
    obtain ⟨hopen, hpercent, hhash⟩ := hhead
    have hstring : ∀ d, (stringTag ['{', d]).head? = some '{' := fun d => rfl
    have hne : ∀ d, stringTag ['{', d] ≠ [] := fun d => List.cons_ne_nil _ _
    have hpercent' : (replace ['{', '{'] (stringTag ['{', '{']) rest).head? ≠ some '%' := by
      rcases head?_replace_pair '{' '{' (hne '{') rest with hhead | hhead
      · rw [hhead]
        exact hpercent
      · rw [hhead, hstring]
        decide
    have hhash' : (replace ['{', '%'] (stringTag ['{', '%'])
        (replace ['{', '{'] (stringTag ['{', '{']) rest)).head? ≠ some '#' := by
      rcases head?_replace_pair '{' '%' (hne '%')
        (replace ['{', '{'] (stringTag ['{', '{']) rest) with hhead | hhead
      · rcases head?_replace_pair '{' '{' (hne '{') rest with hhead' | hhead'
        · rw [hhead, hhead']
          exact hhash
        · rw [hhead, hhead', hstring]
          decide
      · rw [hhead, hstring]
        decide
    unfold escapeTeraDelimiters
    rw [replace_pair_cons_of_head_ne hopen, replace_pair_cons_of_head_ne hpercent',
      replace_pair_cons_of_head_ne hhash']
  · unfold escapeTeraDelimiters
    rw [replace_pair_cons_of_ne hc, replace_pair_cons_of_ne hc, replace_pair_cons_of_ne hc]

end Escape

@[simp]
theorem escapeTeraDelimiters_nil : escapeTeraDelimiters [] = [] := rfl

/-! ### The pieces of a literal -/

@[simp] theorem Piece.ofChar_open : ofChar '{' = openBrace := rfl

@[simp] theorem Piece.ofChar_close : ofChar '}' = closeBrace := rfl

theorem Piece.converted_ofChar (c : Char) : (ofChar c).converted = [c] := by
  unfold ofChar
  split_ifs with hopen hclose
  · rw [hopen, converted]
  · rw [hclose, converted]
  · rfl

theorem Piece.ofChar_eq_open : ofChar c = openBrace ↔ c = '{' := by
  unfold ofChar
  split_ifs with hopen hclose
  · exact iff_of_true rfl hopen
  · exact iff_of_false (by simp) hopen
  · exact iff_of_false (by simp) hopen

theorem Piece.mark_ofChar (c : Char) :
    (ofChar c).mark = if c = '{' ∨ c = '%' ∨ c = '#' then some c else none := by
  by_cases hopen : c = '{'
  · subst hopen
    rfl
  · by_cases hclose : c = '}'
    · subst hclose
      rfl
    · rw [ofChar_text ⟨hopen, hclose⟩, mark]
      simp [hopen]

/-- No literal and no piece of text can be joined with what comes after. -/
def Separate (after : List Piece) : Prop := ∀ next ∈ after.head?, next.mark = none

/-- The template of a literal is the escaped literal. -/
theorem convertPieces_literal (literal : List Char) {after : List Piece} (h : Separate after) :
    convertPieces (literal.map Piece.ofChar ++ after) =
      escapeTeraDelimiters literal ++ convertPieces after := by
  induction hlength : literal.length using Nat.strong_induction_on generalizing literal with
  | _ n ih =>
  rcases literal with - | ⟨c, literal⟩
  · rfl
  · rw [List.length_cons] at hlength
    by_cases hopens : opensTag (c :: literal) = true
    · obtain ⟨d, literal, rfl⟩ : ∃ d rest, literal = d :: rest := by
        cases literal with
        | nil => simp [opensTag] at hopens
        | cons d rest => exact ⟨d, rest, rfl⟩
      obtain rfl : c = '{' := by
        by_contra hc
        simp [opensTag, hc] at hopens
      have hd : d = '{' ∨ d = '%' ∨ d = '#' := by
        simpa [opensTag, or_assoc] using hopens
      have hmark : (Piece.ofChar d).mark = some d := by
        rw [Piece.mark_ofChar, if_pos hd]
      have hescape : escapeTeraDelimiters ('{' :: d :: literal) =
          stringTag ['{', d] ++ escapeTeraDelimiters literal := by
        rcases hd with rfl | rfl | rfl
        · exact escapeTeraDelimiters_open literal
        · exact escapeTeraDelimiters_percent literal
        · exact escapeTeraDelimiters_hash literal
      rw [List.length_cons] at hlength
      rw [hescape, List.map_cons, List.map_cons, List.cons_append, List.cons_append,
        Piece.ofChar_open, convertPieces_mark _ _ hmark, List.append_assoc]
      rw [ih literal.length (by omega) literal rfl]
    · have hkept := eq_false_of_ne_true hopens
      rw [escapeTeraDelimiters_cons hkept, List.map_cons, List.cons_append, convertPieces_cons,
        Piece.converted_ofChar, ih literal.length (by omega) literal rfl]
      · rfl
      · intro hc next hnext
        rw [Piece.ofChar_eq_open] at hc
        subst hc
        cases literal with
        | nil => exact h next hnext
        | cons d literal =>
          obtain rfl : Piece.ofChar d = next := Option.some.inj hnext
          rw [Piece.mark_ofChar, if_neg]
          simpa [opensTag, and_assoc] using hkept

/-! ### The scanner -/

variable (parts : List GraphRagFormatPart)

theorem flatMap_pushLiteralPart (literal : List Char) :
    (pushLiteralPart parts literal).flatMap GraphRagFormatPart.convert =
      parts.flatMap GraphRagFormatPart.convert ++ escapeTeraDelimiters literal := by
  unfold pushLiteralPart
  split_ifs with h
  · rw [h, escapeTeraDelimiters_nil, List.append_nil]
  · rw [List.flatMap_append, List.flatMap_singleton]
    rfl

theorem scanLoop_char (literal : List Char) (h : c ≠ '{' ∧ c ≠ '}') (rest : List Char) :
    scanLoop parts literal (c :: rest) = scanLoop parts (literal ++ [c]) rest := by
  rw [scanLoop.eq_6]
  · exact fun _ hc _ => h.1 hc
  · exact fun hc => h.1 hc
  · exact fun _ hc _ => h.2 hc
  · exact fun hc => h.2 hc

theorem scanLoop_field (parts : List GraphRagFormatPart) (literal : List Char) {rest : List Char}
    (h : rest.head? ≠ some '{') :
    scanLoop parts literal ('{' :: rest) =
      scanField (pushLiteralPart parts literal) [] rest := by
  rw [scanLoop.eq_3]
  rintro tail rfl
  exact h rfl

theorem scanField_char (field : List Char) (h : c ≠ '{' ∧ c ≠ '}') (rest : List Char) :
    scanField parts field (c :: rest) = scanField parts (field ++ [c]) rest := by
  rw [scanField.eq_4]
  · exact fun hc => h.1 hc
  · exact fun hc => h.2 hc

theorem scanField_append (field name : List Char)
    (h : ∀ c ∈ name, c ≠ '{' ∧ c ≠ '}') (rest : List Char) :
    scanField parts field (name ++ rest) = scanField parts (field ++ name) rest := by
  induction name generalizing field with
  | nil => rw [List.nil_append, List.append_nil]
  | cons c name ih =>
    rw [List.cons_append, scanField_char parts field (h c (List.mem_cons_self ..)),
      ih _ fun d hd => h d (List.mem_cons_of_mem c hd), List.append_assoc]
    rfl

/-- The scanner accepts a list of pieces, and the parts convert to the template of the pieces. -/
theorem scanLoop_source (literal : List Char) (pieces : List Piece) :
    ∃ result, scanLoop parts literal (source pieces) = .ok result ∧
      result.flatMap GraphRagFormatPart.convert = parts.flatMap GraphRagFormatPart.convert ++
        convertPieces (literal.map Piece.ofChar ++ pieces) := by
  have hchar : ∀ (c : Char) (literal : List Char) (pieces : List Piece),
      (literal ++ [c]).map Piece.ofChar ++ pieces =
        literal.map Piece.ofChar ++ Piece.ofChar c :: pieces := by
    intro c literal pieces
    simp
  induction pieces generalizing parts literal with
  | nil =>
    refine ⟨pushLiteralPart parts literal, rfl, ?_⟩
    rw [flatMap_pushLiteralPart, convertPieces_literal literal (fun next h => by simp at h),
      convertPieces, List.append_nil]
  | cons piece pieces ih =>
    rw [source_cons]
    cases piece with
    | text c h =>
      obtain ⟨result, hscan, hresult⟩ := ih parts (literal ++ [c])
      refine ⟨result, (scanLoop_char parts literal h _).trans hscan, ?_⟩
      rw [hresult, hchar, Piece.ofChar_text h]
    | openBrace =>
      obtain ⟨result, hscan, hresult⟩ := ih parts (literal ++ ['{'])
      refine ⟨result, hscan, ?_⟩
      rw [hresult, hchar, Piece.ofChar_open]
    | closeBrace =>
      obtain ⟨result, hscan, hresult⟩ := ih parts (literal ++ ['}'])
      refine ⟨result, hscan, ?_⟩
      rw [hresult, hchar, Piece.ofChar_close]
    | field name h =>
      obtain ⟨result, hscan, hresult⟩ := ih (pushLiteralPart parts literal ++ [.field name]) []
      have hsource : (Piece.field name h).source ++ source pieces =
          '{' :: (name ++ '}' :: source pieces) := by
        simp [Piece.source]
      obtain ⟨c, tail, htail, hc⟩ := head?_simple_ne h ('}' :: source pieces)
      have hhead : (name ++ '}' :: source pieces).head? ≠ some '{' := by
        rw [htail]
        exact fun hc' => hc (Option.some.inj hc')
      have hname : ∀ c ∈ name, c ≠ '{' ∧ c ≠ '}' := fun c hc =>
        ⟨isSimpleFormatField_ne h hc (by decide), isSimpleFormatField_ne h hc (by decide)⟩
      refine ⟨result, ?_, ?_⟩
      · rw [hsource, scanLoop_field _ _ hhead, scanField_append _ _ _ hname, List.nil_append,
          scanField, if_pos h]
        exact hscan
      · have hseparate : Separate (.field name h :: pieces) := by
          rintro next ⟨⟩
          rfl
        rw [hresult, List.flatMap_append, flatMap_pushLiteralPart, List.flatMap_singleton,
          convertPieces_literal literal hseparate, convertPieces_cons_of_ne (by simp)]
        simp [GraphRagFormatPart.convert, Piece.converted]

/-- What the scanner accepts is a list of pieces. -/
theorem source_of_scan (text : List Char) :
    (∀ parts literal result, scanLoop parts literal text = .ok result →
      ∃ pieces, text = source pieces) ∧
    (∀ parts field result, scanField parts field text = .ok result →
      ∃ name pieces, text = name ++ '}' :: source pieces ∧
        isSimpleFormatField (field ++ name) = true) := by
  induction hlength : text.length using Nat.strong_induction_on generalizing text with
  | _ n ih =>
  rcases text with - | ⟨c, text⟩
  · refine ⟨fun _ _ _ _ => ⟨[], rfl⟩, fun parts field result h => ?_⟩
    simp [scanField] at h
  · rw [List.length_cons] at hlength
    have hrest := ih text.length (by omega) text rfl
    by_cases hopen : c = '{'
    · subst hopen
      refine ⟨fun parts literal result h => ?_, fun parts field result h => ?_⟩
      · by_cases hhead : text.head? = some '{'
        · obtain ⟨text, rfl⟩ := List.head?_eq_some_iff.mp hhead
          rw [List.length_cons] at hlength
          obtain ⟨pieces, rfl⟩ := (ih text.length (by omega) text rfl).1 parts (literal ++ ['{']) result h
          exact ⟨.openBrace :: pieces, rfl⟩
        · rw [scanLoop_field _ _ hhead] at h
          obtain ⟨name, pieces, rfl, hname⟩ := hrest.2 _ [] result h
          refine ⟨.field name hname :: pieces, ?_⟩
          simp [Piece.source]
      · simp [scanField] at h
    · by_cases hclose : c = '}'
      · subst hclose
        refine ⟨fun parts literal result h => ?_, fun parts field result h => ?_⟩
        · by_cases hhead : text.head? = some '}'
          · obtain ⟨text, rfl⟩ := List.head?_eq_some_iff.mp hhead
            rw [List.length_cons] at hlength
            obtain ⟨pieces, rfl⟩ :=
              (ih text.length (by omega) text rfl).1 parts (literal ++ ['}']) result h
            exact ⟨.closeBrace :: pieces, rfl⟩
          · rw [scanLoop.eq_5] at h
            · cases h
            · rintro tail rfl
              exact hhead rfl
        · rw [scanField] at h
          split_ifs at h with hname
          obtain ⟨pieces, rfl⟩ := hrest.1 _ [] result h
          refine ⟨[], pieces, rfl, ?_⟩
          rw [List.append_nil]
          exact hname
      · refine ⟨fun parts literal result h => ?_, fun parts field result h => ?_⟩
        · rw [scanLoop_char _ _ ⟨hopen, hclose⟩] at h
          obtain ⟨pieces, rfl⟩ := hrest.1 _ _ result h
          exact ⟨.text c ⟨hopen, hclose⟩ :: pieces, rfl⟩
        · rw [scanField_char _ _ ⟨hopen, hclose⟩] at h
          obtain ⟨name, pieces, rfl, hname⟩ := hrest.2 _ _ result h
          refine ⟨c :: name, pieces, rfl, ?_⟩
          rw [List.append_assoc] at hname
          exact hname

/-- The scanner accepts the lists of pieces and nothing else. -/
theorem scanGraphragFormat_eq_ok {text : List Char} :
    (∃ parts, scanGraphragFormat text = .ok parts) ↔ ∃ pieces, text = source pieces := by
  constructor
  · rintro ⟨parts, h⟩
    exact (source_of_scan text).1 [] [] parts h
  · rintro ⟨pieces, rfl⟩
    obtain ⟨result, h, -⟩ := scanLoop_source [] [] pieces
    exact ⟨result, h⟩

/-! ### Finding a known field -/

/-- The kind knows the field. -/
def KnownField (kind : PromptKind) (field : List Char) : Prop :=
  ∃ root, graphragFieldRoot field = some root ∧ String.ofList root ∈ kind.variableNames

/-- Somewhere an odd number of opening braces stands before a known field: the last of them is not
escaped. -/
def HasKnownField (kind : PromptKind) (text : List Char) : Prop :=
  ∃ before pairs field after, text = before ++ (List.replicate (2 * pairs + 1) '{' ++
      (field ++ '}' :: after)) ∧
    before.getLast? ≠ some '{' ∧ (∀ c ∈ field, c ≠ '{' ∧ c ≠ '}') ∧ KnownField kind field

theorem fieldEnd_closed {field : List Char} (h : ∀ c ∈ field, c ≠ '{' ∧ c ≠ '}')
    (after : List Char) : fieldEnd (field ++ '}' :: after) = .closed field after := by
  induction field with
  | nil => simp [fieldEnd]
  | cons c field ih =>
    obtain ⟨hopen, hclose⟩ := h c (List.mem_cons_self ..)
    rw [List.cons_append, fieldEnd, if_neg hopen, if_neg hclose,
      ih fun d hd => h d (List.mem_cons_of_mem c hd)]

theorem fieldEnd_opened {front : List Char} (h : ∀ c ∈ front, c ≠ '{' ∧ c ≠ '}')
    (after : List Char) : fieldEnd (front ++ '{' :: after) = .opened ('{' :: after) := by
  induction front with
  | nil => simp [fieldEnd]
  | cons c front ih =>
    obtain ⟨hopen, hclose⟩ := h c (List.mem_cons_self ..)
    rw [List.cons_append, fieldEnd, if_neg hopen, if_neg hclose,
      ih fun d hd => h d (List.mem_cons_of_mem c hd)]

/-- A list without braces, or one up to its first brace. -/
theorem split_brace (text : List Char) :
    (∀ c ∈ text, c ≠ '{' ∧ c ≠ '}') ∨
    ∃ front c after, text = front ++ c :: after ∧ (∀ c ∈ front, c ≠ '{' ∧ c ≠ '}') ∧
      (c = '{' ∨ c = '}') := by
  induction text with
  | nil => simp
  | cons c text ih =>
    by_cases hc : c = '{' ∨ c = '}'
    · exact Or.inr ⟨[], c, text, rfl, by simp, hc⟩
    · rw [not_or] at hc
      rcases ih with h | ⟨front, d, after, rfl, hfront, hd⟩
      · exact Or.inl (List.forall_mem_cons.mpr ⟨hc, h⟩)
      · exact Or.inr ⟨c :: front, d, after, rfl, List.forall_mem_cons.mpr ⟨hc, hfront⟩, hd⟩

section Detection

variable {kind : PromptKind}

theorem contains_cons_of_ne {c : Char} (h : c ≠ '{') (rest : List Char) :
    containsGraphragKnownRootField kind (c :: rest) = containsGraphragKnownRootField kind rest := by
  rw [containsGraphragKnownRootField, if_pos h]

theorem contains_open_open (rest : List Char) :
    containsGraphragKnownRootField kind ('{' :: '{' :: rest) =
      containsGraphragKnownRootField kind rest := by
  rw [containsGraphragKnownRootField, if_neg (by decide), List.head?_cons, if_pos rfl,
    List.tail_cons]

theorem contains_opened {front after : List Char} (hfront : ∀ c ∈ front, c ≠ '{' ∧ c ≠ '}')
    (hne : front ≠ []) :
    containsGraphragKnownRootField kind ('{' :: (front ++ '{' :: after)) =
      containsGraphragKnownRootField kind ('{' :: after) := by
  have hhead : (front ++ '{' :: after).head? ≠ some '{' := by
    obtain ⟨c, front, rfl⟩ := List.exists_cons_of_ne_nil hne
    exact fun hc => (hfront c (List.mem_cons_self ..)).1 (Option.some.inj hc)
  rw [containsGraphragKnownRootField, if_neg (by decide), if_neg hhead, fieldEnd_opened hfront]

theorem contains_closed {field after : List Char} (hfield : ∀ c ∈ field, c ≠ '{' ∧ c ≠ '}') :
    containsGraphragKnownRootField kind ('{' :: (field ++ '}' :: after)) = true ↔
      KnownField kind field ∨ containsGraphragKnownRootField kind after = true := by
  have hhead : (field ++ '}' :: after).head? ≠ some '{' := by
    cases field with
    | nil => simp
    | cons c field => exact fun hc => (hfield c (List.mem_cons_self ..)).1 (Option.some.inj hc)
  rw [containsGraphragKnownRootField, if_neg (by decide), if_neg hhead, fieldEnd_closed hfield]
  dsimp only
  have hknown : KnownField kind field ↔
      (graphragFieldRoot field).any (fun root => String.ofList root ∈ kind.variableNames) = true := by
    simp [KnownField, Option.any_eq_true]
  rw [hknown]
  split_ifs with h
  · simp [h]
  · simp [h]

theorem contains_run (pairs : ℕ) {field after : List Char}
    (hfield : ∀ c ∈ field, c ≠ '{' ∧ c ≠ '}') (hknown : KnownField kind field) :
    containsGraphragKnownRootField kind
      (List.replicate (2 * pairs + 1) '{' ++ (field ++ '}' :: after)) = true := by
  induction pairs with
  | zero => exact (contains_closed hfield).mpr (Or.inl hknown)
  | succ pairs ih => exact (contains_open_open _).trans ih

/-- What comes before a run of braces does not hide it. -/
theorem contains_append {before after : List Char} (h : before.getLast? ≠ some '{')
    (hafter : containsGraphragKnownRootField kind ('{' :: after) = true) :
    containsGraphragKnownRootField kind (before ++ '{' :: after) = true := by
  induction hlength : before.length using Nat.strong_induction_on generalizing before with
  | _ n ih =>
  rcases before with - | ⟨c, before⟩
  · exact hafter
  · rw [List.length_cons] at hlength
    by_cases hc : c = '{'
    · subst hc
      rcases split_brace before with hbefore | ⟨front, d, rest, rfl, hfront, rfl | rfl⟩
      · have hne : before ≠ [] := by
          rintro rfl
          exact h rfl
        rw [List.cons_append, contains_opened hbefore hne]
        exact hafter
      · have hsuffix : ('{' :: rest).getLast? ≠ some '{' := by
          rw [List.getLast?_cons, List.getLast?_append, List.getLast?_cons, Option.some_or,
            Option.getD_some] at h
          rw [List.getLast?_cons]
          exact h
        have hlast : rest.getLast? ≠ some '{' := by
          intro hrest
          refine hsuffix ?_
          rw [List.getLast?_cons, hrest, Option.getD_some]
        rw [List.length_append, List.length_cons] at hlength
        by_cases hne : front = []
        · subst hne
          refine (contains_open_open _).trans (ih rest.length ?_ hlast rfl)
          simp only [List.length_nil] at hlength
          omega
        · rw [List.cons_append, List.append_assoc, List.cons_append, contains_opened hfront hne]
          have := List.length_pos_of_ne_nil hne
          exact ih (rest.length + 1) (by omega) hsuffix rfl
      · have hlast : rest.getLast? ≠ some '{' := by
          intro hrest
          refine h ?_
          simp [List.getLast?_cons, List.getLast?_append, hrest]
        rw [List.length_append, List.length_cons] at hlength
        rw [List.cons_append, List.append_assoc, List.cons_append, contains_closed hfront]
        exact Or.inr (ih rest.length (by omega) hlast rfl)
    · have hlast : before.getLast? ≠ some '{' := by
        intro hbefore
        refine h ?_
        simp [List.getLast?_cons, hbefore]
      rw [List.cons_append, contains_cons_of_ne hc]
      exact ih before.length (by omega) hlast rfl

/-- A known field that is not escaped is found. -/
theorem containsGraphragKnownRootField_of_hasKnownField {text : List Char}
    (h : HasKnownField kind text) : containsGraphragKnownRootField kind text = true := by
  obtain ⟨before, pairs, field, after, rfl, hlast, hfield, hknown⟩ := h
  exact contains_append hlast (contains_run pairs hfield hknown)

end Detection

/-! ### Lists of pieces with a known field -/

theorem knownField_simple {kind : PromptKind} {name : List Char}
    (h : isSimpleFormatField name = true) (hknown : String.ofList name ∈ kind.variableNames) :
    KnownField kind name := by
  have hroot : name.takeWhile (fun c => c != '!' && c != ':' && c != '.' && c != '[') = name := by
    refine List.takeWhile_eq_self_iff.mpr fun c hc => ?_
    have hne : c ≠ '!' ∧ c ≠ ':' ∧ c ≠ '.' ∧ c ≠ '[' :=
      ⟨isSimpleFormatField_ne h hc (by decide), isSimpleFormatField_ne h hc (by decide),
        isSimpleFormatField_ne h hc (by decide), isSimpleFormatField_ne h hc (by decide)⟩
    simp [hne]
  refine ⟨name, ?_, hknown⟩
  unfold graphragFieldRoot
  rw [hroot, if_pos h]

/-- The opening braces at the end of a list of pieces come in pairs. -/
theorem source_eq_append_replicate (pieces : List Piece) :
    ∃ before pairs, source pieces = before ++ List.replicate (2 * pairs) '{' ∧
      before.getLast? ≠ some '{' := by
  induction pieces using List.reverseRecOn with
  | nil => exact ⟨[], 0, rfl, by simp⟩
  | append_singleton pieces piece ih =>
    rw [source_append, source_cons, source_nil, List.append_nil]
    cases piece with
    | openBrace =>
      obtain ⟨before, pairs, hsource, hlast⟩ := ih
      refine ⟨before, pairs + 1, ?_, hlast⟩
      rw [hsource, List.append_assoc, Nat.mul_add, List.replicate_add]
      rfl
    | text c h =>
      refine ⟨source pieces ++ [c], 0, by simp [Piece.source], ?_⟩
      simpa using h.1
    | closeBrace =>
      refine ⟨source pieces ++ ['}', '}'], 0, by simp [Piece.source], ?_⟩
      simp
    | field name h =>
      refine ⟨source pieces ++ '{' :: (name ++ ['}']), 0, by simp [Piece.source], ?_⟩
      rw [← List.cons_append, ← List.append_assoc, List.getLast?_concat]
      decide

theorem HasKnownPiece.hasKnownField {kind : PromptKind} {pieces : List Piece}
    (h : HasKnownPiece kind pieces) : HasKnownField kind (source pieces) := by
  obtain ⟨name, hname, hmem, hknown⟩ := h
  obtain ⟨front, after, rfl⟩ := List.append_of_mem hmem
  obtain ⟨before, pairs, hsource, hlast⟩ := source_eq_append_replicate front
  refine ⟨before, pairs, name, source after, ?_, hlast, ?_, knownField_simple hname hknown⟩
  · rw [source_append, source_cons, hsource, List.replicate_add]
    simp [Piece.source]
  · exact fun c hc =>
      ⟨isSimpleFormatField_ne hname hc (by decide), isSimpleFormatField_ne hname hc (by decide)⟩

/-- A list of pieces with a known field becomes its template. -/
theorem convertGraphragFormatSyntax_source {kind : PromptKind} {pieces : List Piece}
    (h : HasKnownPiece kind pieces) (source' : PromptSource) :
    convertGraphragFormatSyntax kind (source pieces) source' = .ok (convertPieces pieces) := by
  obtain ⟨parts, hscan, hparts⟩ := scanLoop_source [] [] pieces
  unfold convertGraphragFormatSyntax scanGraphragFormat
  rw [if_pos (containsGraphragKnownRootField_of_hasKnownField h.hasKnownField), hscan]
  dsimp only
  rw [hparts]
  rfl

end GraphLoom.Prompts
