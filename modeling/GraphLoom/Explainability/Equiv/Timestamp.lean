import GraphLoom.Explainability.Sqlite
import Mathlib.Data.String.Basic

/-!
# Timestamps as text

The text of a timestamp reads back to it, and texts compare as timestamps do, as long as the year
has four digits and a leap second stands at the end of its minute (`Canonical`).  A leap second
elsewhere is written as the second that follows it.
-/

namespace GraphLoom.Explainability

open Foundation

namespace DateTime

/-- The year is written with four digits and no sign. -/
def FourDigitYear (t : DateTime) : Prop := 0 ≤ t.year ∧ t.year ≤ 9999

/-- A leap second, if the timestamp is one, follows the last second of its minute. -/
def StandardLeapSecond (t : DateTime) : Prop := t.nanosecond < 1000000000 ∨ t.second = 59

instance (t : DateTime) : Decidable t.FourDigitYear :=
  inferInstanceAs (Decidable (0 ≤ t.year ∧ t.year ≤ 9999))

instance (t : DateTime) : Decidable t.StandardLeapSecond :=
  inferInstanceAs (Decidable (t.nanosecond < 1000000000 ∨ t.second = 59))

/-- A timestamp whose text denotes it. -/
structure Canonical (t : DateTime) : Prop where
  year : t.FourDigitYear
  leap : t.StandardLeapSecond

/-- The ranges of the fields. -/
theorem bounds (t : DateTime) : t.month ≤ 12 ∧ t.day ≤ 31 ∧ t.hour < 24 ∧ t.minute < 60 ∧
    t.second < 60 ∧ t.nanosecond < 2000000000 := by
  have h := t.valid
  simp only [isCalendarTime, Bool.decide_and, Bool.and_eq_true, decide_eq_true_eq] at h
  obtain ⟨-, hmonth, -, hday, hhour, hminute, hsecond, hnano⟩ := h
  refine ⟨hmonth, hday.trans ?_, hhour, hminute, hsecond, hnano⟩
  unfold daysInMonth
  split_ifs <;> decide

variable {t : DateTime}

theorem fitsColumns_writtenFields (h : t.FourDigitYear) :
    FitsColumns timestampColumns t.writtenFields := by
  obtain ⟨hmonth, hday, hhour, hminute, hsecond, hnano⟩ := t.bounds
  obtain ⟨hlow, hhigh⟩ := h
  have hwritten : t.writtenSecond.1 < 100 ∧ t.writtenSecond.2 < 1000000000 := by
    unfold writtenSecond
    split
    · exact ⟨by simp only; omega, by simp only; omega⟩
    · exact ⟨by simp only; omega, by simp only; omega⟩
  exact .cons (by omega) (.cons (by omega) (.cons (by omega) (.cons (by omega) (.cons (by omega)
    (.cons (by omega) (.cons (by omega) .nil))))))

theorem datetimeToSqlText_eq (h : t.FourDigitYear) : datetimeToSqlText t =
      String.ofList (renderColumns ['Z'] timestampColumns t.writtenFields) :=
  ite_cond_eq_true _ _ (eq_true h)

/-- The written fields of a canonical timestamp denote it. -/
theorem timestampOfFields_writtenFields (h : t.Canonical) :
    timestampOfFields t.writtenFields = some t := by
  obtain ⟨-, -, -, -, hsecond, -⟩ := t.bounds
  have hyear : ((t.year.toNat : ℕ) : ℤ) = t.year := Int.toNat_of_nonneg h.year.1
  have hback : (if t.writtenSecond.1 = 60 then (59, t.writtenSecond.2 + 1000000000)
      else (t.writtenSecond.1, t.writtenSecond.2)) = (t.second, t.nanosecond) := by
    rcases h.leap with hleap | hleap
    · have hwritten : t.writtenSecond = (t.second, t.nanosecond) :=
        ite_cond_eq_false _ _ (eq_false (by omega))
      rw [hwritten]
      exact ite_cond_eq_false _ _ (eq_false (by simp only; omega))
    · by_cases hnano : 1000000000 ≤ t.nanosecond
      · have hwritten : t.writtenSecond = (t.second + 1, t.nanosecond - 1000000000) :=
          ite_cond_eq_true _ _ (eq_true hnano)
        rw [hwritten, hleap]
        simp only [↓reduceIte, Prod.mk.injEq, true_and]
        omega
      · have hwritten : t.writtenSecond = (t.second, t.nanosecond) :=
          ite_cond_eq_false _ _ (eq_false hnano)
        rw [hwritten]
        exact ite_cond_eq_false _ _ (eq_false (by simp only; omega))
  rw [writtenFields, timestampOfFields]
  simp only [hback, hyear, t.valid, ↓reduceDIte]

/-- A canonical timestamp's text reads back to it. -/
theorem datetimeFromSqlText_toSqlText (h : t.Canonical) :
    datetimeFromSqlText (datetimeToSqlText t) = .ok t := by
  have hread : (readColumns ['Z'] timestampColumns (datetimeToSqlText t).toList).bind
      timestampOfFields = some t := by
    rw [datetimeToSqlText_eq h.year, String.toList_ofList,
      readColumns_renderColumns _ (fitsColumns_writtenFields h.year), Option.bind_some,
      timestampOfFields_writtenFields h]
  rw [datetimeFromSqlText, hread]
  simp

/-- Columns denote canonical timestamps only. -/
theorem canonical_of_timestampOfFields {ns : List ℕ}
    (hfits : FitsColumns timestampColumns ns) (h : timestampOfFields ns = some t) :
    t.Canonical := by
  obtain _ | @⟨_, _, year, _, _, hyear, _ | ⟨-, _ | ⟨-, _ | ⟨-, _ | ⟨-, _ | ⟨-,
    _ | @⟨_, _, nanosecond, _, _, hnano, _ | _⟩⟩⟩⟩⟩⟩⟩ := hfits
  rw [timestampOfFields] at h
  split at h
  rename_i hsecond
  split at h
  · obtain rfl := Option.some.inj h
    refine ⟨⟨?_, ?_⟩, ?_⟩
    · exact Int.natCast_nonneg year
    · show (year : ℤ) ≤ 9999
      omega
    · unfold StandardLeapSecond
      split at hsecond
      · obtain ⟨rfl, rfl⟩ := Prod.mk.inj hsecond
        exact Or.inr rfl
      · obtain ⟨rfl, rfl⟩ := Prod.mk.inj hsecond
        left
        show nanosecond < 1000000000
        omega
  · cases h

/-- Text that reads back is the text of a canonical timestamp. -/
theorem of_datetimeFromSqlText {value : String}
    (h : datetimeFromSqlText value = .ok t) : t.Canonical ∧ datetimeToSqlText t = value := by
  unfold datetimeFromSqlText at h
  split at h
  · cases h
  · next parsed hparsed =>
    split at h
    · cases h
    · next hvalue =>
      obtain rfl := Except.ok.inj h
      obtain ⟨ns, hns, hfields⟩ := Option.bind_eq_some_iff.mp hparsed
      exact ⟨canonical_of_timestampOfFields (fitsColumns_of_readColumns hns) hfields,
        not_not.mp hvalue⟩

/-- The written fields of canonical timestamps compare as the timestamps. -/
theorem writtenFields_lt_iff {a b : DateTime} (ha : a.Canonical) (hb : b.Canonical) :
    a.writtenFields < b.writtenFields ↔ a < b := by
  obtain ⟨-, -, -, -, ha', -⟩ := a.bounds
  obtain ⟨-, -, -, -, hb', -⟩ := b.bounds
  have hsecond : (a.writtenSecond.1 < b.writtenSecond.1 ∨
      a.writtenSecond.1 = b.writtenSecond.1 ∧ a.writtenSecond.2 < b.writtenSecond.2) ↔
      (a.second < b.second ∨ a.second = b.second ∧ a.nanosecond < b.nanosecond) := by
    have hleapA := ha.leap
    have hleapB := hb.leap
    unfold StandardLeapSecond at hleapA hleapB
    unfold writtenSecond
    split <;> split <;> simp only <;> omega
  have hyear : a.year.toNat < b.year.toNat ↔ a.year < b.year := by
    have := ha.year.1
    have := hb.year.1
    omega
  have hyearEq : a.year.toNat = b.year.toNat ↔ a.year = b.year := by
    have := ha.year.1
    have := hb.year.1
    omega
  rw [lt_iff_fields]
  simp only [writtenFields, fields, List.cons_lt_cons_iff, List.not_lt_nil, and_false, or_false,
    Int.ofNat_lt, Int.natCast_inj, hsecond, hyear, hyearEq]

/-- **Text order is time order.** -/
theorem datetimeToSqlText_lt_iff {a b : DateTime} (ha : a.Canonical) (hb : b.Canonical) :
    datetimeToSqlText a < datetimeToSqlText b ↔ a < b := by
  rw [datetimeToSqlText_eq ha.year, datetimeToSqlText_eq hb.year, String.lt_iff_toList_lt,
    String.toList_ofList, String.toList_ofList,
    renderColumns_lt_iff _ (fitsColumns_writtenFields ha.year) (fitsColumns_writtenFields hb.year),
    writtenFields_lt_iff ha hb]

theorem datetimeToSqlText_inj {a b : DateTime} (ha : a.Canonical) (hb : b.Canonical) :
    datetimeToSqlText a = datetimeToSqlText b ↔ a = b := by
  constructor
  · intro h
    have hread := datetimeFromSqlText_toSqlText ha
    rw [h, datetimeFromSqlText_toSqlText hb] at hread
    exact (Except.ok.inj hread).symm
  · exact congrArg datetimeToSqlText

end DateTime

end GraphLoom.Explainability
