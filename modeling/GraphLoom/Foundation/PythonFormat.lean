import GraphLoom.Foundation.Fallible

/-!
# Python's `str.format`

A format string is literal text with replacement fields between braces; a doubled brace is the
brace itself.  A field is a name, then perhaps `!` and a conversion, then perhaps `:` and a format
specification, in which fields may stand again.  What a field prints is given by `arguments`.
-/

namespace GraphLoom.Foundation.PythonFormat

/-- Why a format string is refused. -/
inductive FormatError where
  | singleOpen
  | singleClose
  | openInFieldName
  | expectedClose
  | unmatchedOpenInSpec
  | endInConversion
  | expectedColonAfterConversion
  | recursionExceeded
  | missingArgument
deriving DecidableEq, Repr

/-- The errors that say that the braces of the format string are not balanced. -/
def FormatError.unbalanced : FormatError → Bool
  | .singleOpen | .singleClose | .openInFieldName | .expectedClose | .unmatchedOpenInSpec => true
  | .endInConversion | .expectedColonAfterConversion | .recursionExceeded | .missingArgument => false

structure ReplacementField where
  name : List Char
  conversion : Option Char
  spec : List Char
deriving DecidableEq, Repr

/-- The field `{name}`. -/
def ReplacementField.simple (name : List Char) : ReplacementField := ⟨name, none, []⟩

inductive Chunk where
  | literal (c : Char)
  | field (field : ReplacementField)
deriving DecidableEq, Repr

/-- The name of a field, the character that ends it and what follows.  Between `[` and `]` no
character ends it. -/
def fieldName : Bool → List Char → Except FormatError (List Char × Char × List Char)
  | _, [] => .error .expectedClose
  | inIndex, c :: rest =>
    if inIndex then
      (fieldName (c != ']') rest).map fun (name, stop, rest) => (c :: name, stop, rest)
    else if c = '{' then .error .openInFieldName
    else if c = '}' ∨ c = ':' ∨ c = '!' then .ok ([], c, rest)
    else (fieldName (c == '[') rest).map fun (name, stop, rest) => (c :: name, stop, rest)

/-- The format specification and what follows it, inside `depth` more braces. -/
def formatSpec : ℕ → List Char → Except FormatError (List Char × List Char)
  | _, [] => .error .unmatchedOpenInSpec
  | depth, c :: rest =>
    if c = '{' then (formatSpec (depth + 1) rest).map fun (spec, rest) => (c :: spec, rest)
    else if c = '}' then
      match depth with
      | 0 => .ok ([], rest)
      | depth + 1 => (formatSpec depth rest).map fun (spec, rest) => (c :: spec, rest)
    else (formatSpec depth rest).map fun (spec, rest) => (c :: spec, rest)

/-- The field whose name ended with `stop`, and what follows its closing brace. -/
def afterFieldName (name : List Char) (stop : Char) (rest : List Char) :
    Except FormatError (ReplacementField × List Char) :=
  if stop = '}' then .ok (.simple name, rest)
  else if stop = '!' then
    match rest with
    | [] => .error .endInConversion
    | [_] => .error .unmatchedOpenInSpec
    | conversion :: c :: rest =>
      if c = '}' then .ok (⟨name, some conversion, []⟩, rest)
      else if c = ':' then
        (formatSpec 0 rest).map fun (spec, rest) => (⟨name, some conversion, spec⟩, rest)
      else .error .expectedColonAfterConversion
  else (formatSpec 0 rest).map fun (spec, rest) => (⟨name, none, spec⟩, rest)

/-- The field that starts after an opening brace, and what follows its closing brace. -/
def parseField (text : List Char) : Except FormatError (ReplacementField × List Char) := do
  let (name, stop, rest) ← fieldName false text
  afterFieldName name stop rest

theorem fieldName_length {inIndex : Bool} {text name rest : List Char} {stop : Char}
    (h : fieldName inIndex text = .ok (name, stop, rest)) : rest.length < text.length := by
  induction text generalizing inIndex name with
  | nil => simp [fieldName] at h
  | cons c text ih =>
    rw [List.length_cons]
    unfold fieldName at h
    split_ifs at h
    · obtain ⟨⟨name', stop', rest'⟩, hname, hresult⟩ := map_eq_ok.mp h
      simp only [Prod.mk.injEq] at hresult
      obtain ⟨-, rfl, rfl⟩ := hresult
      exact Nat.lt_succ_of_lt (ih hname)
    · simp only [Except.ok.injEq, Prod.mk.injEq] at h
      rw [← h.2.2]
      exact Nat.lt_succ_self _
    · obtain ⟨⟨name', stop', rest'⟩, hname, hresult⟩ := map_eq_ok.mp h
      simp only [Prod.mk.injEq] at hresult
      obtain ⟨-, rfl, rfl⟩ := hresult
      exact Nat.lt_succ_of_lt (ih hname)

theorem formatSpec_length {depth : ℕ} {text spec rest : List Char}
    (h : formatSpec depth text = .ok (spec, rest)) : rest.length < text.length := by
  induction text generalizing depth spec with
  | nil => simp [formatSpec] at h
  | cons c text ih =>
    have hmap : ∀ {depth'}, ((formatSpec depth' text).map fun (spec, rest) =>
        (c :: spec, rest)) = .ok (spec, rest) → rest.length < (c :: text).length := by
      intro depth' hmap
      obtain ⟨⟨spec', rest'⟩, hspec, hresult⟩ := map_eq_ok.mp hmap
      simp only [Prod.mk.injEq] at hresult
      obtain ⟨-, rfl⟩ := hresult
      exact Nat.lt_succ_of_lt (ih hspec)
    unfold formatSpec at h
    split_ifs at h
    · exact hmap h
    · cases depth with
      | zero =>
        simp only [Except.ok.injEq, Prod.mk.injEq] at h
        rw [← h.2]
        exact Nat.lt_succ_self _
      | succ depth => exact hmap h
    · exact hmap h

theorem afterFieldName_length {name rest rest' : List Char} {stop : Char} {field : ReplacementField}
    (h : afterFieldName name stop rest = .ok (field, rest')) : rest'.length ≤ rest.length := by
  have hmap : ∀ {text : List Char} {make : List Char → ReplacementField},
      text.length ≤ rest.length →
      ((formatSpec 0 text).map fun (spec, rest) => (make spec, rest)) = .ok (field, rest') →
        rest'.length ≤ rest.length := by
    intro text make hle hmap
    obtain ⟨⟨spec, rest''⟩, hspec, hresult⟩ := map_eq_ok.mp hmap
    simp only [Prod.mk.injEq] at hresult
    obtain ⟨-, rfl⟩ := hresult
    have := formatSpec_length hspec
    omega
  unfold afterFieldName at h
  split_ifs at h
  · simp only [Except.ok.injEq, Prod.mk.injEq] at h
    exact Nat.le_of_eq (congrArg List.length h.2.symm)
  · rcases rest with - | ⟨conversion, - | ⟨c, rest⟩⟩
    · cases h
    · cases h
    · dsimp only at h
      split_ifs at h
      · simp only [Except.ok.injEq, Prod.mk.injEq] at h
        rw [← h.2, List.length_cons, List.length_cons]
        omega
      · exact hmap (by rw [List.length_cons, List.length_cons]; omega) h
  · exact hmap (Nat.le_refl _) h

theorem parseField_length {text rest : List Char} {field : ReplacementField}
    (h : parseField text = .ok (field, rest)) : rest.length < text.length := by
  obtain ⟨⟨name, stop, rest'⟩, hname, h⟩ := bind_eq_ok.mp h
  have := fieldName_length hname
  have := afterFieldName_length h
  omega

/-- The chunks of a format string. -/
def parse : List Char → Except FormatError (List Chunk)
  | [] => .ok []
  | c :: rest =>
    if c = '{' then
      if rest = [] then .error .singleOpen
      else if rest.head? = some '{' then (parse rest.tail).map (.literal c :: ·)
      else
        match _h : parseField rest with
        | .error error => .error error
        | .ok (field, after) => (parse after).map (.field field :: ·)
    else if c = '}' then
      if rest.head? = some '}' then (parse rest.tail).map (.literal c :: ·)
      else .error .singleClose
    else (parse rest).map (.literal c :: ·)
termination_by text => text.length
decreasing_by
  · simp only [List.length_tail, List.length_cons]; omega
  · have := parseField_length _h
    simp only [List.length_cons]; omega
  · simp only [List.length_tail, List.length_cons]; omega
  · simp

/-- The text of a chunk, where `build` builds the specifications that have fields in them. -/
def chunkText (arguments : ReplacementField → Option (List Char))
    (build : List Char → Except FormatError (List Char)) : Chunk → Except FormatError (List Char)
  | .literal c => .ok [c]
  | .field field => do
    let spec ← if '{' ∈ field.spec then build field.spec else .ok field.spec
    match arguments { field with spec := spec } with
    | some text => .ok text
    | none => .error .missingArgument

/-- The text that a format string builds, with fields inside specifications up to a depth. -/
def buildString (arguments : ReplacementField → Option (List Char)) :
    ℕ → List Char → Except FormatError (List Char)
  | 0, _ => .error .recursionExceeded
  | depth + 1, text => do
    let chunks ← parse text
    let texts ← chunks.mapM (chunkText arguments (buildString arguments depth))
    return texts.flatten

/-- `str.format`, where `arguments` gives the text of a field. -/
def strFormat (arguments : ReplacementField → Option (List Char)) (text : List Char) :
    Except FormatError (List Char) :=
  buildString arguments 2 text

end GraphLoom.Foundation.PythonFormat
