import GraphLoom.Foundation.Fallible
import GraphLoom.Foundation.Scan

/-!
# Environment variables in settings

The settings text is scanned by index for references to variables, which are looked up in the
environment and in the values of the `.env` file.
-/

namespace GraphLoom.Config

open Foundation

/-- What ends a substitution early: a variable that is not defined, or a slice that is not within
the text. -/
inductive SubstituteError where
  | missingEnvironmentVariable (name : String)
  | sliceOutOfRange
deriving DecidableEq, Repr

/-- Where values are looked up: those that tests give, the process environment and the `.env`
file. -/
structure Environment where
  testEnv : String → Option String
  env : String → Option String
  dotenv : String → Option String

def isEnvStart (ch : Char) : Bool :=
  ch == '_' || ch.isAlpha

def isEnvContinue (ch : Char) : Bool :=
  ch == '_' || ch.isAlphanum

def lookupEnv (environment : Environment) (name : String) : Except SubstituteError String :=
  match environment.testEnv name with
  | some value => .ok value
  | none => match environment.env name with
    | some value => .ok value
    | none => match environment.dotenv name with
      | some value => .ok value
      | none => .error (.missingEnvironmentVariable name)

def sliceOf (chars : List Char) (start stop : ℕ) : Except SubstituteError String :=
  match slice chars start stop with
  | some chars => .ok (String.ofList chars)
  | none => .error .sliceOutOfRange

/-- What stands at a `$`: a character to copy, or the name of a variable, and how many characters
that takes. -/
inductive Form where
  | copied (consumed : ℕ)
  | variable (name : String) (consumed : ℕ)
deriving DecidableEq, Repr

/-- Reads the form at the `$` at an index, with the character after it. -/
def formAt (chars : List Char) (index : ℕ) (next : Char) : Except SubstituteError Form := do
  if next = '$' then
    .ok (.copied 2)
  else if next = '\x7b' then
    let stop := scanWhile (· != '\x7d') chars (index + 2)
    if chars.length ≤ stop then
      .ok (.copied 1)
    else
      let name ← sliceOf chars (index + 2) stop
      .ok (.variable name (stop - index + 1))
  else if isEnvStart next then
    let stop := scanWhile isEnvContinue chars (index + 1)
    let name ← sliceOf chars (index + 1) stop
    .ok (.variable name (stop - index))
  else
    .ok (.copied 1)

def Form.consumed : Form → ℕ
  | .copied consumed => consumed
  | .variable _ consumed => consumed

/-- Every form takes a character. -/
theorem formAt_consumed_pos {chars : List Char} {index : ℕ} {next : Char} {form : Form}
    (h : formAt chars index next = .ok form) : 0 < form.consumed := by
  unfold formAt at h
  split at h
  · obtain rfl := Except.ok.inj h
    exact Nat.two_pos
  · split at h
    · dsimp only at h
      split at h
      · obtain rfl := Except.ok.inj h
        exact Nat.one_pos
      · obtain ⟨name, -, h⟩ := bind_eq_ok.mp h
        obtain rfl := Except.ok.inj h
        exact Nat.succ_pos _
    · split at h
      · obtain ⟨name, -, h⟩ := bind_eq_ok.mp h
        obtain rfl := Except.ok.inj h
        have hle : index + 1 ≤ scanWhile isEnvContinue chars (index + 1) := le_scanWhile _ _ _
        show 0 < scanWhile isEnvContinue chars (index + 1) - index
        omega
      · obtain rfl := Except.ok.inj h
        exact Nat.one_pos

def substituteLoop (environment : Environment) (chars : List Char) (index : ℕ) (output : String) :
    Except SubstituteError String :=
  if hlt : index < chars.length then
    if chars[index] ≠ '$' then
      substituteLoop environment chars (index + 1) (output.push chars[index])
    else match chars[index + 1]? with
      | none => .ok (output.push '$')
      | some next => match hform : formAt chars index next with
        | .error error => .error error
        | .ok (.copied consumed) =>
          substituteLoop environment chars (index + consumed) (output.push '$')
        | .ok (.variable name consumed) => match lookupEnv environment name with
          | .error error => .error error
          | .ok value => substituteLoop environment chars (index + consumed) (output ++ value)
  else .ok output
termination_by chars.length - index
decreasing_by
  · omega
  · have hpos : 0 < consumed := formAt_consumed_pos hform
    omega
  · have hpos : 0 < consumed := formAt_consumed_pos hform
    omega

def substituteEnv (raw : String) (environment : Environment) : Except SubstituteError String :=
  substituteLoop environment raw.toList 0 ""

end GraphLoom.Config
