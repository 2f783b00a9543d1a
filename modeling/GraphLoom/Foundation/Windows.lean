import Mathlib.Data.List.Chain

/-!
# Overlapping windows

`Windows size overlap length start spans` says that the spans are windows of `size` positions, each
`size - overlap` positions behind the one before it, from `start` on up to the first that reaches
`length`.  A span is given by its first position and the one behind its last.
-/

namespace GraphLoom.Foundation

inductive Windows (size overlap length : ℕ) : ℕ → List (ℕ × ℕ) → Prop
  | last {start : ℕ} : start < length → length ≤ start + size →
      Windows size overlap length start [(start, length)]
  | step {start : ℕ} {spans : List (ℕ × ℕ)} : start + size < length →
      Windows size overlap length (start + (size - overlap)) spans →
      Windows size overlap length start ((start, start + size) :: spans)

namespace Windows

variable {size overlap length start : ℕ} {spans : List (ℕ × ℕ)}

theorem head? (h : Windows size overlap length start spans) :
    ∃ stop, spans.head? = some (start, stop) := by
  cases h with
  | last => exact ⟨length, rfl⟩
  | step => exact ⟨start + size, rfl⟩

theorem getLast? (h : Windows size overlap length start spans) :
    ∃ first, spans.getLast? = some (first, length) := by
  induction h with
  | @last start => exact ⟨start, rfl⟩
  | step _ rest ih =>
    obtain ⟨first, hlast⟩ := ih
    refine ⟨first, ?_⟩
    rw [List.getLast?_cons, hlast, Option.getD_some]

/-- A span is not empty, not longer than a window and in range. -/
theorem bounds (hsize : 0 < size) (h : Windows size overlap length start spans) :
    ∀ span ∈ spans, start ≤ span.1 ∧ span.1 < span.2 ∧ span.2 ≤ length ∧ span.2 ≤ span.1 + size := by
  induction h with
  | @last start hlt hle =>
    intro span hspan
    obtain rfl := List.mem_singleton.mp hspan
    exact ⟨le_refl _, hlt, le_refl _, hle⟩
  | @step start spans hlt rest ih =>
    intro span hspan
    obtain rfl | hspan := List.mem_cons.mp hspan
    · show start ≤ start ∧ start < start + size ∧ start + size ≤ length ∧
        start + size ≤ start + size
      omega
    · have hrest := ih span hspan
      omega

/-- Each span begins `overlap` positions before the end of the one before it and ends behind it. -/
theorem isChain (hoverlap : overlap < size) (h : Windows size overlap length start spans) :
    spans.IsChain fun span next => next.1 + overlap = span.2 ∧ span.1 < next.1 ∧
      span.2 < next.2 := by
  induction h with
  | last => exact List.isChain_singleton _
  | @step start spans hlt rest ih =>
    rw [List.isChain_cons]
    refine ⟨?_, ih⟩
    intro next hnext
    cases rest with
    | last hstart hle =>
      obtain rfl := Option.some_inj.mp hnext
      show start + (size - overlap) + overlap = start + size ∧ _ ∧ start + size < length
      omega
    | step hstart rest =>
      obtain rfl := Option.some_inj.mp hnext
      show start + (size - overlap) + overlap = start + size ∧ _ ∧
        start + size < start + (size - overlap) + size
      omega

/-- Every position from the first on is in a span. -/
theorem covers (h : Windows size overlap length start spans) :
    ∀ position, start ≤ position → position < length →
      ∃ span ∈ spans, span.1 ≤ position ∧ position < span.2 := by
  induction h with
  | @last start hlt hle =>
    intro position hstart hlength
    exact ⟨(start, length), List.mem_singleton_self _, hstart, hlength⟩
  | @step start spans hlt rest ih =>
    intro position hstart hlength
    by_cases hin : position < start + size
    · exact ⟨(start, start + size), List.mem_cons_self, hstart, hin⟩
    · obtain ⟨span, hspan, hposition⟩ := ih position (by omega) hlength
      exact ⟨span, List.mem_cons_of_mem _ hspan, hposition⟩

end Windows

end GraphLoom.Foundation
