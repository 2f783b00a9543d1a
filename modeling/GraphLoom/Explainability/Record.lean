import Mathlib.Data.Int.Order.Basic
import Mathlib.Data.List.Lex
import Mathlib.Algebra.Group.Nat.Defs
import Mathlib.Order.Lattice

/-!
# Records of the explainability contract

`DateTime` is the value of a `chrono::DateTime<Utc>`: a proleptic Gregorian date and a time of
day.  As in `chrono`, the nanoseconds of a time run to `2 · 10⁹`; those from `10⁹` on denote a leap
second that follows the second they are attached to, which need not be the last of its minute.
Timestamps are ordered field by field, from the year to the nanosecond.

The owned data of the explainability contract.  An identifier is a text that passed
`validateIdentifier`; an envelope is a record with a non-zero sequence and the one supported schema
version.  The business event inside a record is a parameter `ε`: persistence never looks at it,
except to write it as text.
-/

namespace GraphLoom.Explainability

/-- Whether a proleptic Gregorian year is a leap year. -/
def isLeapYear (year : ℤ) : Bool :=
  year % 4 = 0 ∧ (year % 100 ≠ 0 ∨ year % 400 = 0)

/-- The number of days of a month. -/
def daysInMonth (year : ℤ) (month : ℕ) : ℕ :=
  if month = 2 then (if isLeapYear year then 29 else 28)
  else if month = 4 ∨ month = 6 ∨ month = 9 ∨ month = 11 then 30
  else 31

/-- The range of each field of a timestamp. -/
def isCalendarTime (year : ℤ) (month day hour minute second nanosecond : ℕ) : Bool :=
  1 ≤ month ∧ month ≤ 12 ∧ 1 ≤ day ∧ day ≤ daysInMonth year month ∧ hour < 24 ∧ minute < 60 ∧
    second < 60 ∧ nanosecond < 2000000000

/-- A UTC timestamp. -/
structure DateTime where
  year : ℤ
  month : ℕ
  day : ℕ
  hour : ℕ
  minute : ℕ
  second : ℕ
  nanosecond : ℕ
  valid : isCalendarTime year month day hour minute second nanosecond = true
deriving DecidableEq

namespace DateTime

/-- The fields of a timestamp, the most significant first. -/
def fields (t : DateTime) : List ℤ :=
  [t.year, t.month, t.day, t.hour, t.minute, t.second, t.nanosecond]

theorem fields_injective : Function.Injective fields := by
  rintro ⟨y, mo, d, h, mi, s, n, hv⟩ ⟨y', mo', d', h', mi', s', n', hv'⟩ heq
  simp only [fields, List.cons.injEq, Int.natCast_inj, and_true] at heq
  obtain ⟨rfl, rfl, rfl, rfl, rfl, rfl, rfl⟩ := heq
  rfl

/-- Timestamps are compared field by field. -/
instance : LinearOrder DateTime := LinearOrder.lift' fields fields_injective

theorem lt_iff_fields (a b : DateTime) : a < b ↔ a.fields < b.fields := Iff.rfl

end DateTime

/-! ## Identifiers, runs, records and envelopes -/

/-! ### Identifiers -/

/-- Validation errors of the transport contract that identifiers and envelopes can raise. -/
inductive ExplainabilityContractError where
  | invalidIdentifier (kind reason : String)
  | zeroSequence
deriving DecidableEq, Repr

/-- The largest number of bytes of an identifier. -/
def maxIdentifierBytes : ℕ := 128

/-- The bytes an identifier may contain. -/
def isIdentifierChar (c : Char) : Bool :=
  c.isAlphanum || c == '-' || c == '_' || c == '.' || c == ':'

/-- The checks an identifier text goes through, in order. -/
def validateIdentifier (kind value : String) : Except ExplainabilityContractError Unit :=
  if value.isEmpty then
    .error (.invalidIdentifier kind "value must not be empty")
  else if maxIdentifierBytes < value.utf8ByteSize then
    .error (.invalidIdentifier kind "value exceeds 128 bytes")
  else if !value.toList.all isIdentifierChar then
    .error (.invalidIdentifier kind
      "only ASCII letters, digits, hyphen, underscore, period, and colon are allowed")
  else .ok ()

/-- A validated identifier of the given kind. -/
structure Identifier (kind : String) where
  asStr : String
  valid : validateIdentifier kind asStr = .ok ()
deriving DecidableEq

/-- Identity of one run. -/
abbrev ExplainabilityRunId := Identifier "explainability run id"

/-- Identity of one business span. -/
abbrev ExplainabilitySpanId := Identifier "explainability span id"

namespace Identifier

variable {kind : String}

/-- Parse an identifier. -/
def fromStr (kind value : String) : Except ExplainabilityContractError (Identifier kind) :=
  match h : validateIdentifier kind value with
  | .error e => .error e
  | .ok () => .ok ⟨value, h⟩

theorem asStr_injective : Function.Injective (asStr : Identifier kind → String) := by
  rintro ⟨a, ha⟩ ⟨b, hb⟩ (rfl : a = b)
  rfl

@[simp]
theorem asStr_inj {a b : Identifier kind} : a.asStr = b.asStr ↔ a = b :=
  asStr_injective.eq_iff

/-- An identifier's own text parses back to it. -/
@[simp]
theorem fromStr_asStr (id : Identifier kind) : fromStr kind id.asStr = .ok id := by
  unfold fromStr
  split
  · next e he => rw [id.valid] at he; cases he
  · rfl

end Identifier

/-! ### Runs -/

/-- What one run does. -/
inductive ExplainabilityRunKind where
  | index
  | update
  | query
  | promptTune
deriving DecidableEq, Repr

/-- Lifecycle status of one run. -/
inductive ExplainabilityRunStatus where
  | pending
  | running
  | completed
  | failed
  | cancelled
deriving DecidableEq, Repr

/-- Query method of a query run. -/
inductive ExplainabilityQueryMethod where
  | basic
  | local
  | global
  | drift
deriving DecidableEq, Repr

/-- Metadata of one explainable operation. -/
structure ExplainabilityRun where
  runId : ExplainabilityRunId
  kind : ExplainabilityRunKind
  status : ExplainabilityRunStatus
  query : Option String
  queryMethod : Option ExplainabilityQueryMethod
  startedAt : DateTime
  completedAt : Option DateTime
  compatibilityProfile : Option String
  eventCount : ℕ
deriving DecidableEq

/-- Whether a status is terminal. -/
def isTerminal : ExplainabilityRunStatus → Bool
  | .completed | .failed | .cancelled => true
  | .pending | .running => false

/-! ### Records and envelopes -/

/-- One business event with its run and span. -/
structure ExplainabilityRecord (ε : Type) where
  runId : ExplainabilityRunId
  timestamp : DateTime
  spanId : ExplainabilitySpanId
  parentSpanId : Option ExplainabilitySpanId
  event : ε
deriving DecidableEq

/-- The schema version every envelope carries. -/
def explainabilitySchemaVersion : ℕ := 1

/-- A record with the sequence the single persistence writer gave it. -/
structure ExplainabilityEnvelope (ε : Type) where
  schemaVersion : ℕ
  sequence : ℕ
  record : ExplainabilityRecord ε
  supported : schemaVersion = explainabilitySchemaVersion
  nonZero : 0 < sequence
deriving DecidableEq

namespace ExplainabilityEnvelope

variable {ε : Type}

/-- Add a sequence to a record. -/
def new (sequence : ℕ) (record : ExplainabilityRecord ε) :
    Except ExplainabilityContractError (ExplainabilityEnvelope ε) :=
  if h : 0 < sequence then .ok ⟨explainabilitySchemaVersion, sequence, record, rfl, h⟩
  else .error .zeroSequence

theorem new_of_pos {sequence : ℕ} (h : 0 < sequence) (record : ExplainabilityRecord ε) :
    new sequence record = .ok ⟨explainabilitySchemaVersion, sequence, record, rfl, h⟩ := by
  rw [new, dite_cond_eq_true (eq_true h)]

/-- An envelope is determined by its sequence and its record. -/
theorem eq_of_sequence_record {a b : ExplainabilityEnvelope ε} (hs : a.sequence = b.sequence)
    (hr : a.record = b.record) : a = b := by
  obtain ⟨va, sa, ra, ha, _⟩ := a
  obtain ⟨vb, sb, rb, hb, _⟩ := b
  simp only at hs hr
  subst hs hr
  rw [← hb] at ha
  subst ha
  rfl

/-- Rebuilding an envelope from its own sequence and record gives it back. -/
theorem new_sequence_record (e : ExplainabilityEnvelope ε) : new e.sequence e.record = .ok e := by
  rw [new_of_pos e.nonZero]
  exact congrArg Except.ok (eq_of_sequence_record rfl rfl)

end ExplainabilityEnvelope

/-! ### Machine integers -/

/-- The largest `u64`. -/
def u64Max : ℕ := 2 ^ 64 - 1

/-- `u64::checked_add`. -/
def checkedAdd (a b : ℕ) : Option ℕ :=
  if a + b ≤ u64Max then some (a + b) else none

theorem checkedAdd_eq_some {a b c : ℕ} : checkedAdd a b = some c ↔ a + b ≤ u64Max ∧ c = a + b := by
  unfold checkedAdd
  split
  · next h => simp [h, eq_comm]
  · next h => simp [h]

end GraphLoom.Explainability
