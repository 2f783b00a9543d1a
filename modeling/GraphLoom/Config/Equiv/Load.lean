import Mathlib.Algebra.Order.Group.Nat
import Mathlib.Data.List.TakeWhile
import GraphLoom.Config.Load

/-!
# Substitution follows the grammar of templates

A text is a sequence of pieces (`exists_pieces`), and substitution gives their values one after
another, or the error of the first variable that is not defined (`substituteEnv_render`).  The proof
goes along the pieces: the scan stands behind those that are done.
-/

namespace GraphLoom.Config

open Foundation

/-! ### Pieces -/

/-- The pieces of a template. -/
inductive Piece where
  | literal (text : String)
  | dollar
  | braced (name : String)
  | bare (name : String)
  -- a `$` that starts none of the forms
  | stray
deriving DecidableEq, Repr

namespace Piece

def render : Piece → List Char
  | literal text => text.toList
  | dollar => ['$', '$']
  | braced name => '$' :: '\x7b' :: (name.toList ++ ['\x7d'])
  | bare name => '$' :: name.toList
  | stray => ['$']

/-- The value of a piece. -/
def value (environment : Environment) : Piece → Except SubstituteError String
  | literal text => .ok text
  | dollar => .ok "$"
  | braced name => lookupEnv environment name
  | bare name => lookupEnv environment name
  | stray => .ok "$"

/-- The piece is one of its form before the rest of a text. -/
def Fits (rest : List Char) : Piece → Prop
  | literal text => '$' ∉ text.toList
  | dollar => True
  | braced name => '\x7d' ∉ name.toList
  | bare name => (∃ first after, name.toList = first :: after ∧ isEnvStart first ∧
      ∀ ch ∈ after, isEnvContinue ch) ∧ ∀ ch, rest.head? = some ch → isEnvContinue ch = false
  | stray => ∀ ch after, rest = ch :: after → ch ≠ '$' ∧ isEnvStart ch = false ∧
      (ch = '\x7b' → '\x7d' ∉ after)

end Piece

/-- The text of a sequence of pieces. -/
def render (pieces : List Piece) : List Char := pieces.flatMap Piece.render

/-- Each piece is one of its form before those that follow. -/
def WellFormed : List Piece → Prop
  | [] => True
  | piece :: pieces => piece.Fits (render pieces) ∧ WellFormed pieces

/-- The values of the pieces, one after another, or the first error. -/
def expand (environment : Environment) (pieces : List Piece) : Except SubstituteError String :=
  (pieces.mapM (Piece.value environment)).map String.join

/-! ### Forms -/

variable {environment : Environment}

theorem formAt_dollar (chars : List Char) (index : ℕ) :
    formAt chars index '$' = .ok (.copied 2) := by
  simp [formAt]

theorem formAt_braced (before name rest : List Char) (hname : '}' ∉ name) :
    formAt (before ++ '$' :: '{' :: (name ++ '}' :: rest)) before.length '{' =
      .ok (.variable (String.ofList name) (name.length + 3)) := by
  have hsplit : before ++ '$' :: '{' :: (name ++ '}' :: rest) =
      (before ++ ['$', '{']) ++ (name ++ '}' :: rest) := by simp
  have hlength : (before ++ ['$', '{']).length = before.length + 2 := by simp
  have hscan := scanWhile_append (p := (· != '}')) (before ++ ['$', '{']) name ('}' :: rest)
    (fun ch hch => by simpa using fun h : ch = '}' => hname (h ▸ hch))
    (fun ch hch => by simp [← Option.some.inj hch])
  have hslice := slice_append (before ++ ['$', '{']) name ('}' :: rest)
  rw [← hsplit, hlength] at hscan hslice
  have hlt : ¬ (before ++ '$' :: '{' :: (name ++ '}' :: rest)).length ≤
      before.length + 2 + name.length := by
    simp
    omega
  unfold formAt sliceOf
  simp only [show ('{' : Char) ≠ '$' by decide, if_false, if_true, hscan, hlt, hslice]
  simp only [bind, Except.bind]
  congr 2
  omega

theorem formAt_bare {before name rest : List Char} {first : Char} {after : List Char}
    (hname : name = first :: after) (hfirst : isEnvStart first)
    (hafter : ∀ ch ∈ after, isEnvContinue ch)
    (hrest : ∀ ch, rest.head? = some ch → isEnvContinue ch = false) :
    formAt (before ++ '$' :: (name ++ rest)) before.length first =
      .ok (.variable (String.ofList name) (name.length + 1)) := by
  have hcontinue : ∀ ch ∈ name, isEnvContinue ch = true := by
    intro ch hch
    rw [hname] at hch
    rcases List.mem_cons.mp hch with rfl | hch
    · unfold isEnvStart at hfirst
      unfold isEnvContinue Char.isAlphanum
      rcases Bool.or_eq_true _ _ |>.mp hfirst with h | h
      · rw [h, Bool.true_or]
      · rw [h, Bool.true_or, Bool.or_true]
    · exact hafter ch hch
  have hdollar : first ≠ '$' := by
    rintro rfl
    exact absurd hfirst (by decide)
  have hbrace : first ≠ '{' := by
    rintro rfl
    exact absurd hfirst (by decide)
  have hsplit : before ++ '$' :: (name ++ rest) = (before ++ ['$']) ++ (name ++ rest) := by simp
  have hlength : (before ++ ['$']).length = before.length + 1 := by simp
  have hscan := scanWhile_append (before ++ ['$']) name rest hcontinue hrest
  have hslice := slice_append (before ++ ['$']) name rest
  rw [← hsplit, hlength] at hscan hslice
  unfold formAt sliceOf
  simp only [hdollar, hbrace, hfirst, if_false, if_true, hscan, hslice]
  simp only [bind, Except.bind]
  congr 2
  omega

theorem formAt_stray {before : List Char} {ch : Char} {after : List Char} (hdollar : ch ≠ '$')
    (hstart : isEnvStart ch = false) (hbrace : ch = '{' → '}' ∉ after) :
    formAt (before ++ '$' :: ch :: after) before.length ch = .ok (.copied 1) := by
  unfold formAt
  by_cases h : ch = '{'
  · have hscan := scanWhile_append (p := (· != '}')) (before ++ ['$', ch]) after []
      (fun c hc => by simpa using fun heq : c = '}' => hbrace h (heq ▸ hc))
      (fun c hc => by cases hc)
    have hsplit : (before ++ ['$', ch]) ++ (after ++ []) = before ++ '$' :: ch :: after := by simp
    have hlength : (before ++ ['$', ch]).length = before.length + 2 := by simp
    rw [hsplit, hlength] at hscan
    have hle : (before ++ '$' :: ch :: after).length ≤ before.length + 2 + after.length := by
      simp
      omega
    rw [h] at hscan hle
    simp only [h, if_true]
    rw [hscan, if_pos hle, if_neg (by decide)]
  · simp [hdollar, h, hstart]

/-! ### The scan -/

/-- A character other than `$` is copied. -/
theorem substituteLoop_copy (before : List Char) {ch : Char} (rest : List Char) (hch : ch ≠ '$')
    (output : String) :
    substituteLoop environment (before ++ ch :: rest) before.length output =
      substituteLoop environment (before ++ ch :: rest) (before.length + 1) (output.push ch) := by
  have hlt : before.length < (before ++ ch :: rest).length := by simp
  have hget : (before ++ ch :: rest)[before.length] = ch := by simp
  rw [substituteLoop, dif_pos hlt, hget, if_pos hch]

/-- At a `$` the form is read that it starts. -/
theorem substituteLoop_form (before : List Char) {next : Char} {rest : List Char} {form : Form}
    (hform : formAt (before ++ '$' :: next :: rest) before.length next = .ok form)
    (output : String) :
    substituteLoop environment (before ++ '$' :: next :: rest) before.length output =
      match form with
      | .copied consumed => substituteLoop environment (before ++ '$' :: next :: rest)
          (before.length + consumed) (output.push '$')
      | .variable name consumed => match lookupEnv environment name with
        | .error error => .error error
        | .ok value => substituteLoop environment (before ++ '$' :: next :: rest)
            (before.length + consumed) (output ++ value) := by
  have hlt : before.length < (before ++ '$' :: next :: rest).length := by simp
  have hget : (before ++ '$' :: next :: rest)[before.length] = '$' := by simp
  have hnext : (before ++ '$' :: next :: rest)[before.length + 1]? = some next := by
    rw [List.getElem?_append_right (Nat.le_add_right _ _), Nat.add_sub_cancel_left]
    rfl
  rw [substituteLoop, dif_pos hlt, hget, if_neg (not_not_intro rfl)]
  split
  · next hnone => exact absurd (hnext.symm.trans hnone) (by simp)
  · next next' hsome =>
    obtain rfl := Option.some.inj (hnext.symm.trans hsome)
    split
    · next error herror => cases hform.symm.trans herror
    · next consumed hcopied =>
      obtain rfl := Except.ok.inj (hform.symm.trans hcopied)
      rfl
    · next name consumed hvariable =>
      obtain rfl := Except.ok.inj (hform.symm.trans hvariable)
      rfl

/-- A `$` at the end is copied. -/
theorem substituteLoop_last (before : List Char) (output : String) :
    substituteLoop environment (before ++ ['$']) before.length output = .ok (output.push '$') := by
  have hlt : before.length < (before ++ ['$']).length := by simp
  have hget : (before ++ ['$'])[before.length] = '$' := by simp
  have hnext : (before ++ ['$'])[before.length + 1]? = none := by simp
  rw [substituteLoop, dif_pos hlt, hget, if_neg (not_not_intro rfl)]
  split
  · rfl
  · next next' hsome => cases hnext.symm.trans hsome

theorem substituteLoop_end (before : List Char) (output : String) :
    substituteLoop environment before before.length output = .ok output := by
  rw [substituteLoop, dif_neg (Nat.lt_irrefl _)]

/-- A text without `$` is copied. -/
theorem substituteLoop_literal (before text rest : List Char) (htext : '$' ∉ text)
    (output : String) :
    substituteLoop environment (before ++ (text ++ rest)) before.length output =
      substituteLoop environment (before ++ (text ++ rest)) (before.length + text.length)
        (output ++ String.ofList text) := by
  induction text generalizing before output with
  | nil => simp
  | cons ch text ih =>
    have hch : ch ≠ '$' := fun h => htext (h ▸ List.mem_cons_self ..)
    have hrest := ih (before ++ [ch]) (fun h => htext (List.mem_cons_of_mem _ h)) (output.push ch)
    rw [List.append_assoc, List.singleton_append, List.length_append, List.length_singleton] at hrest
    have houtput : output.push ch ++ String.ofList text = output ++ String.ofList (ch :: text) := by
      rw [← String.toList_inj]
      simp
    rw [List.cons_append, substituteLoop_copy before _ hch, hrest, houtput, List.length_cons,
      Nat.add_assoc, Nat.add_comm 1]

theorem push_dollar (output : String) : output.push '$' = output ++ "$" := by
  rw [← String.toList_inj]
  simp

/-- One piece: the scan moves behind it, and its value is written. -/
theorem substituteLoop_piece (before rest : List Char) {piece : Piece} (h : piece.Fits rest)
    (output : String) :
    substituteLoop environment (before ++ (piece.render ++ rest)) before.length output =
      match piece.value environment with
      | .error error => .error error
      | .ok value => substituteLoop environment (before ++ (piece.render ++ rest))
          (before.length + piece.render.length) (output ++ value) := by
  cases piece with
  | literal text =>
    have hliteral := @substituteLoop_literal environment before text.toList rest h output
    rw [String.ofList_toList] at hliteral
    exact hliteral
  | dollar =>
    exact (substituteLoop_form before (formAt_dollar _ _) output).trans (by rw [push_dollar]; rfl)
  | braced name =>
    have hform := formAt_braced before name.toList rest h
    rw [String.ofList_toList] at hform
    have hloop := @substituteLoop_form environment before _ _ _ hform output
    have hrender : (Piece.braced name).render ++ rest =
        '$' :: '{' :: (name.toList ++ '}' :: rest) := by simp [Piece.render]
    have hlength : (Piece.braced name).render.length = name.toList.length + 3 := by
      simp [Piece.render]
    rw [hrender, hlength, hloop]
    rfl
  | bare name =>
    obtain ⟨⟨first, after, hname, hfirst, hafter⟩, hrest⟩ := h
    have hform := @formAt_bare before _ _ _ _ hname hfirst hafter hrest
    have hrender : (Piece.bare name).render ++ rest = '$' :: (name.toList ++ rest) := rfl
    have hlength : (Piece.bare name).render.length = name.toList.length + 1 := rfl
    have hcons : name.toList ++ rest = first :: (after ++ rest) := by rw [hname]; rfl
    rw [hcons, String.ofList_toList] at hform
    rw [hcons] at hrender
    have hloop := @substituteLoop_form environment before _ _ _ hform output
    rw [hrender, hlength, hloop]
    rfl
  | stray =>
    cases rest with
    | nil =>
      refine (substituteLoop_last before output).trans ?_
      have hend := @substituteLoop_end environment (before ++ ['$']) (output ++ "$")
      rw [List.length_append] at hend
      rw [push_dollar]
      exact hend.symm
    | cons ch after =>
      obtain ⟨hdollar, hstart, hbrace⟩ := h ch after rfl
      have hform := @formAt_stray before _ _ hdollar hstart hbrace
      exact (substituteLoop_form before hform output).trans (by rw [push_dollar]; rfl)

/-- The pieces from an index on. -/
theorem substituteLoop_pieces (before : List Char) (pieces : List Piece) (h : WellFormed pieces)
    (output : String) :
    substituteLoop environment (before ++ render pieces) before.length output =
      (expand environment pieces).map (output ++ ·) := by
  induction pieces generalizing before output with
  | nil =>
    rw [render, List.flatMap_nil, List.append_nil, substituteLoop_end]
    simp [expand, Except.map, pure, Except.pure, String.join]
  | cons piece pieces ih =>
    have hrender : render (piece :: pieces) = piece.render ++ render pieces := rfl
    rw [hrender, substituteLoop_piece before _ h.1]
    unfold expand
    rw [List.mapM_cons]
    cases piece.value environment with
    | error error => rfl
    | ok value =>
      have hrest := ih (before ++ piece.render) h.2 (output ++ value)
      rw [List.append_assoc, List.length_append] at hrest
      dsimp only
      rw [hrest]
      unfold expand
      simp only [bind, Except.bind]
      cases pieces.mapM (Piece.value environment) with
      | error error => rfl
      | ok values =>
        simp only [Except.map, pure, Except.pure]
        rw [String.join_cons, String.append_assoc]

/-! ### Every text is a sequence of pieces -/

theorem WellFormed.cons_literal {ch : Char} (hch : ch ≠ '$') {pieces : List Piece}
    (h : WellFormed pieces) : WellFormed (.literal (String.singleton ch) :: pieces) := by
  refine ⟨?_, h⟩
  simp only [Piece.Fits, String.toList_singleton, List.mem_singleton]
  exact hch.symm

/-- The characters that satisfy a condition at the start of a text, and the others. -/
theorem span_continue (text : List Char) :
    ∃ run rest, text = run ++ rest ∧ (∀ ch ∈ run, isEnvContinue ch) ∧
      ∀ ch, rest.head? = some ch → isEnvContinue ch = false := by
  refine ⟨text.takeWhile isEnvContinue, text.dropWhile isEnvContinue,
    (List.takeWhile_append_dropWhile ..).symm, fun ch hch => (List.mem_takeWhile_imp hch), ?_⟩
  intro ch hch
  have hnot := List.head?_dropWhile_not isEnvContinue text
  rw [hch] at hnot
  simpa using hnot

theorem exists_pieces (text : List Char) : ∃ pieces, WellFormed pieces ∧ render pieces = text := by
  -- on the length: each form leaves a shorter rest
  induction h : text.length using Nat.strong_induction_on generalizing text with
  | _ n ih =>
  have ih' : ∀ rest : List Char, rest.length < text.length →
      ∃ pieces, WellFormed pieces ∧ render pieces = rest :=
    fun rest hlt => ih rest.length (h ▸ hlt) rest rfl
  cases text with
  | nil => exact ⟨[], trivial, rfl⟩
  | cons ch rest =>
    by_cases hdollar : ch = '$'
    · subst hdollar
      cases rest with
      | nil => exact ⟨[.stray], ⟨fun c after hc => (by cases hc), trivial⟩, rfl⟩
      | cons next after =>
        by_cases hnext : next = '$'
        · obtain ⟨pieces, hpieces, hrender⟩ := ih' after (by rw [List.length_cons, List.length_cons]; omega)
          exact ⟨.dollar :: pieces, ⟨trivial, hpieces⟩, by rw [hnext, ← hrender]; rfl⟩
        · by_cases hstart : isEnvStart next
          · obtain ⟨run, rest, hsplit, hrun, hstop⟩ := span_continue after
            obtain ⟨pieces, hpieces, hrender⟩ := ih' rest (by simp [hsplit]; omega)
            refine ⟨.bare (String.ofList (next :: run)) :: pieces, ⟨⟨⟨next, run, ?_, hstart, hrun⟩, ?_⟩,
              hpieces⟩, ?_⟩
            · rw [String.toList_ofList]
            · rwa [hrender]
            · rw [hsplit, ← hrender, render, List.flatMap_cons, Piece.render, String.toList_ofList]
              rfl
          · by_cases hbrace : next = '{' ∧ '}' ∈ after
            · obtain ⟨rfl, hclose⟩ := hbrace
              obtain ⟨name, rest, hsplit, hname⟩ := List.eq_append_cons_of_mem hclose
              obtain ⟨pieces, hpieces, hrender⟩ := ih' rest (by simp [hsplit]; omega)
              refine ⟨.braced (String.ofList name) :: pieces, ⟨?_, hpieces⟩, ?_⟩
              · rwa [Piece.Fits, String.toList_ofList]
              · rw [hsplit, ← hrender, render, List.flatMap_cons, Piece.render, String.toList_ofList]
                simp [render]
            · obtain ⟨pieces, hpieces, hrender⟩ := ih' (next :: after) (by simp)
              refine ⟨.stray :: pieces, ⟨?_, hpieces⟩, by rw [← hrender]; rfl⟩
              rw [hrender]
              rintro c after' heq
              obtain ⟨rfl, rfl⟩ := List.cons.inj heq
              refine ⟨hnext, by simpa using hstart, fun hopen hclose => hbrace ⟨hopen, hclose⟩⟩
    · obtain ⟨pieces, hpieces, hrender⟩ := ih' rest (by simp)
      refine ⟨.literal (String.singleton ch) :: pieces, hpieces.cons_literal hdollar, ?_⟩
      rw [← hrender, render, List.flatMap_cons, Piece.render, String.toList_singleton]
      rfl

/-! ### Substitution -/

/-- The substitution gives the values of the pieces. -/
theorem substituteEnv_pieces {raw : String} {pieces : List Piece} (h : WellFormed pieces)
    (hraw : render pieces = raw.toList) :
    substituteEnv raw environment = expand environment pieces := by
  have hloop := @substituteLoop_pieces environment [] pieces h ""
  rw [List.nil_append, List.length_nil, hraw] at hloop
  rw [substituteEnv, hloop]
  cases expand environment pieces with
  | error error => rfl
  | ok output => simp [Except.map]

/-- The text with each `$` doubled. -/
def doubleDollars (text : String) : String :=
  String.ofList (text.toList.flatMap fun ch => if ch = '$' then ['$', '$'] else [ch])

/-- Each character of a text, as the piece that it is when each `$` is doubled. -/
def charPiece (ch : Char) : Piece := if ch = '$' then .dollar else .literal (String.singleton ch)

theorem charPiece_spec (ch : Char) (rest : List Char) :
    (charPiece ch).Fits rest ∧
      (charPiece ch).render = (if ch = '$' then ['$', '$'] else [ch]) ∧
      (charPiece ch).value environment = .ok (String.singleton ch) := by
  unfold charPiece
  split
  · next h =>
    subst h
    exact ⟨trivial, rfl, rfl⟩
  · next h =>
    refine ⟨?_, by simp [Piece.render], rfl⟩
    simp only [Piece.Fits, String.toList_singleton, List.mem_singleton]
    exact fun heq => h heq.symm

theorem doubleDollars_pieces (text : List Char) :
    WellFormed (text.map charPiece) ∧
      render (text.map charPiece) =
        text.flatMap (fun ch => if ch = '$' then ['$', '$'] else [ch]) ∧
      (text.map charPiece).mapM (Piece.value environment) = .ok (text.map String.singleton) := by
  induction text with
  | nil => exact ⟨trivial, rfl, rfl⟩
  | cons ch text ih =>
    obtain ⟨hformed, hrender, hvalues⟩ := ih
    obtain ⟨hfits, hpiece, hvalue⟩ := @charPiece_spec environment ch
      (render (text.map charPiece))
    refine ⟨⟨hfits, hformed⟩, ?_, ?_⟩
    · rw [List.map_cons, render, List.flatMap_cons, hpiece, ← render, hrender, List.flatMap_cons]
    · rw [List.map_cons, List.mapM_cons, hvalue, hvalues]
      rfl

/-- A text with each `$` doubled comes out as it was. -/
theorem substituteEnv_doubleDollars (text : String) :
    substituteEnv (doubleDollars text) environment = .ok text := by
  obtain ⟨hformed, hrender, hvalues⟩ := @doubleDollars_pieces environment text.toList
  rw [substituteEnv_pieces hformed (by rw [hrender, doubleDollars, String.toList_ofList]), expand,
    hvalues]
  simp only [Except.map]
  congr 1
  rw [← String.toList_inj, String.toList_join]
  simp [List.flatMap_map]

/-- The only errors of the values are those of variables that are not defined. -/
theorem Piece.value_error {piece : Piece} {error : SubstituteError}
    (h : piece.value environment = .error error) :
    ∃ name, (piece = .braced name ∨ piece = .bare name) ∧
      error = .missingEnvironmentVariable name := by
  have hlookup : ∀ name, lookupEnv environment name = .error error →
      error = .missingEnvironmentVariable name := by
    intro name hname
    unfold lookupEnv at hname
    split at hname
    · cases hname
    · split at hname
      · cases hname
      · split at hname
        · cases hname
        · exact (Except.error.inj hname).symm
  cases piece with
  | literal | dollar | stray => cases h
  | braced name => exact ⟨name, .inl rfl, hlookup name h⟩
  | bare name => exact ⟨name, .inr rfl, hlookup name h⟩

theorem expand_eq_error_iff {pieces : List Piece} {error : SubstituteError} :
    expand environment pieces = .error error ↔
      ∃ before piece after values, pieces = before ++ piece :: after ∧
        List.Forall₂ (fun piece value => piece.value environment = .ok value) before values ∧
        piece.value environment = .error error := by
  rw [← mapM_eq_error_iff, expand]
  cases pieces.mapM (Piece.value environment) with
  | error e => simp [Except.map]
  | ok values => simp [Except.map]

/-- **Substitution implements the grammar of templates.** Every text is a sequence of pieces; the
output is the values of the pieces one after another, or the error of the first variable that is not
defined; a text with each `$` doubled comes out unchanged; and no slice is out of range. -/
theorem substituteEnv_spec (environment : Environment) (raw : String) :
    (∃ pieces, WellFormed pieces ∧ render pieces = raw.toList) ∧
    (∀ pieces, WellFormed pieces → render pieces = raw.toList →
      (∀ output, substituteEnv raw environment = .ok output ↔
        ∃ values, List.Forall₂ (fun piece value => piece.value environment = .ok value) pieces values ∧
          output = String.join values) ∧
      (∀ error, substituteEnv raw environment = .error error ↔
        ∃ before piece after values name, pieces = before ++ piece :: after ∧
          List.Forall₂ (fun piece value => piece.value environment = .ok value) before values ∧
          (piece = .braced name ∨ piece = .bare name) ∧
          piece.value environment = .error error ∧ error = .missingEnvironmentVariable name)) ∧
    substituteEnv (doubleDollars raw) environment = .ok raw ∧
    substituteEnv raw environment ≠ .error .sliceOutOfRange := by
  obtain ⟨pieces, hformed, hraw⟩ := exists_pieces raw.toList
  refine ⟨⟨pieces, hformed, hraw⟩, fun pieces hformed hraw => ?_, substituteEnv_doubleDollars raw,
    fun hslice => ?_⟩
  · rw [substituteEnv_pieces hformed hraw]
    refine ⟨fun output => ?_, fun error => ?_⟩
    · rw [expand, map_eq_ok]
      constructor
      · rintro ⟨values, hvalues, rfl⟩
        exact ⟨values, mapM_eq_ok_iff.mp hvalues, rfl⟩
      · rintro ⟨values, hvalues, rfl⟩
        exact ⟨values, mapM_eq_ok_iff.mpr hvalues, rfl⟩
    · rw [expand_eq_error_iff]
      constructor
      · rintro ⟨before, piece, after, values, heq, hvalues, herror⟩
        obtain ⟨name, hpiece, hname⟩ := Piece.value_error herror
        exact ⟨before, piece, after, values, name, heq, hvalues, hpiece, herror, hname⟩
      · rintro ⟨before, piece, after, values, name, heq, hvalues, -, herror, -⟩
        exact ⟨before, piece, after, values, heq, hvalues, herror⟩
  · rw [substituteEnv_pieces hformed hraw, expand_eq_error_iff] at hslice
    obtain ⟨before, piece, after, values, -, -, herror⟩ := hslice
    obtain ⟨name, -, hname⟩ := Piece.value_error herror
    cases hname

/-- Both forms of a variable are looked up, the second is not defined. -/
theorem substituteEnv_spec_sample :
    let environment : Environment :=
      ⟨fun name => if name = "A" then some "$B" else none, fun _ => none, fun _ => none⟩
    substituteEnv "x$$${A}$B-" environment = .error (.missingEnvironmentVariable "B") := by
  intro environment
  let pieces : List Piece := [.literal "x", .dollar, .braced "A", .bare "B", .literal "-"]
  have hformed : WellFormed pieces := by
    have hx : '$' ∉ "x".toList := by decide
    have hA : '\x7d' ∉ "A".toList := by decide
    have hdash : '$' ∉ "-".toList := by decide
    refine ⟨hx, trivial, hA, ⟨⟨'B', [], rfl, by decide, List.forall_mem_nil _⟩, ?_⟩, hdash, trivial⟩
    intro ch hch
    obtain rfl := Option.some.inj hch
    decide
  have hraw : render pieces = "x$$${A}$B-".toList := by decide
  exact ((((substituteEnv_spec environment "x$$${A}$B-").2.1 pieces hformed hraw).2 _).mpr
    ⟨[.literal "x", .dollar, .braced "A"], .bare "B", [.literal "-"], ["x", "$", "$B"], "B", rfl,
      .cons rfl (.cons rfl (.cons rfl .nil)), .inr rfl, rfl, rfl⟩)

end GraphLoom.Config
