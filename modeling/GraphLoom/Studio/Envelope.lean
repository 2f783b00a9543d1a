import GraphLoom.Foundation.JsValue
import Mathlib.Data.List.Pairwise

/-!
# Envelopes in the explorer

The envelopes of a run as the explorer receives them.  The event inside is a value that was parsed
from a document, so its fields are known only after a type guard has read them; an envelope that
passed a guard carries the event that the guard has read.
-/

namespace GraphLoom.Studio

open Foundation

structure ExplainabilityRecord where
  runId : String
  timestamp : String
  spanId : String
  parentSpanId : Option String
  event : Js.Value

structure ExplainabilityEnvelope where
  schemaVersion : ℚ
  sequence : ℚ
  record : ExplainabilityRecord

/-- `event is T`: the `type` of the event, and a reading of its fields. -/
structure TypeGuard (α : Type) where
  type : String
  fields : Js.Value → Option α

def eventType (event : Js.Value) : Option String := (event.get "type").string?

namespace TypeGuard

variable {α : Type} (guard : TypeGuard α)

def accepts (event : Js.Value) : Option α :=
  if eventType event = some guard.type then guard.fields event else none

theorem type_of_accepts {guard : TypeGuard α} {event : Js.Value} {a : α}
    (h : guard.accepts event = some a) : eventType event = some guard.type := by
  unfold accepts at h
  split at h
  · next htype => exact htype
  · cases h

end TypeGuard

/-- An envelope whose event passed a guard. -/
structure TypedEnvelope {α : Type} (guard : TypeGuard α) where
  envelope : ExplainabilityEnvelope
  event : α
  typed : guard.accepts envelope.record.event = some event

namespace TypedEnvelope

variable {α β : Type} {guard : TypeGuard α} {guard' : TypeGuard β}

def sequence (typed : TypedEnvelope guard) : ℚ := typed.envelope.sequence

def spanId (typed : TypedEnvelope guard) : String := typed.envelope.record.spanId

def parentSpanId (typed : TypedEnvelope guard) : Option String :=
  typed.envelope.record.parentSpanId

@[ext]
theorem ext_envelope {a b : TypedEnvelope guard} (h : a.envelope = b.envelope) : a = b := by
  obtain ⟨envelope, event, ha⟩ := a
  obtain ⟨envelope', event', hb⟩ := b
  obtain rfl : envelope = envelope' := h
  obtain rfl : event = event' := Option.some_inj.mp (ha.symm.trans hb)
  rfl

theorem envelope_injective :
    Function.Injective (envelope : TypedEnvelope guard → ExplainabilityEnvelope) :=
  fun _ _ => ext_envelope

theorem envelope_ne_of_type_ne (h : guard.type ≠ guard'.type) (a : TypedEnvelope guard)
    (b : TypedEnvelope guard') : a.envelope ≠ b.envelope := by
  intro hab
  have ha := TypeGuard.type_of_accepts a.typed
  rw [hab, TypeGuard.type_of_accepts b.typed, Option.some_inj] at ha
  exact h ha.symm

theorem accepts_eq_none_of_type_ne (h : guard.type ≠ guard'.type) (b : TypedEnvelope guard') :
    guard.accepts b.envelope.record.event = none := by
  rw [Option.eq_none_iff_forall_ne_some]
  intro a ha
  have htype := TypeGuard.type_of_accepts ha
  rw [TypeGuard.type_of_accepts b.typed, Option.some_inj] at htype
  exact h htype.symm

end TypedEnvelope

variable {α : Type} {guard : TypeGuard α} {envelopes : List ExplainabilityEnvelope}

def typedEnvelope (guard : TypeGuard α) (envelope : ExplainabilityEnvelope) :
    Option (TypedEnvelope guard) :=
  match h : guard.accepts envelope.record.event with
  | some event => some ⟨envelope, event, h⟩
  | none => none

/-- The envelopes that a guard accepts. -/
def typedEnvelopes (guard : TypeGuard α) (envelopes : List ExplainabilityEnvelope) :
    List (TypedEnvelope guard) := envelopes.filterMap (typedEnvelope guard)

/-- `values.at(-1)`. -/
def last {α : Type} (values : List α) : Option α := values.getLast?

theorem typedEnvelope_eq_some_iff {envelope : ExplainabilityEnvelope} {x : TypedEnvelope guard} :
    typedEnvelope guard envelope = some x ↔ x.envelope = envelope := by
  unfold typedEnvelope
  split
  · next event h =>
    rw [Option.some_inj]
    constructor
    · rintro rfl
      rfl
    · intro hx
      exact TypedEnvelope.ext_envelope hx.symm
  · next h =>
    simp only [reduceCtorEq, false_iff]
    rintro rfl
    rw [x.typed] at h
    cases h

@[simp]
theorem mem_typedEnvelopes {x : TypedEnvelope guard} :
    x ∈ typedEnvelopes guard envelopes ↔ x.envelope ∈ envelopes := by
  simp [typedEnvelopes, typedEnvelope_eq_some_iff]

theorem mem_of_last {α : Type} {x : α} {xs : List α} (h : last xs = some x) : x ∈ xs :=
  List.mem_of_getLast? h

/-! ### Types of events -/

/-- The events of a list have the given types. -/
def HasTypes (types : List String) (envelopes : List ExplainabilityEnvelope) : Prop :=
  ∀ envelope ∈ envelopes, ∃ type ∈ types, eventType envelope.record.event = some type

theorem hasTypes_map (xs : List (TypedEnvelope guard)) :
    HasTypes [guard.type] (xs.map (·.envelope)) := by
  intro envelope henvelope
  obtain ⟨x, -, rfl⟩ := List.mem_map.mp henvelope
  exact ⟨_, List.mem_singleton_self _, TypeGuard.type_of_accepts x.typed⟩

theorem hasTypes_option (x : Option (TypedEnvelope guard)) :
    HasTypes [guard.type] (x.map (·.envelope)).toList := by
  cases x with
  | none => exact fun _ h => absurd h List.not_mem_nil
  | some x => exact hasTypes_map [x]

theorem HasTypes.append {types types' : List String} {xs ys : List ExplainabilityEnvelope}
    (hxs : HasTypes types xs) (hys : HasTypes types' ys) :
    HasTypes (types ++ types') (xs ++ ys) := by
  intro envelope henvelope
  obtain h | h := List.mem_append.mp henvelope
  · obtain ⟨type, hmem, htype⟩ := hxs envelope h
    exact ⟨type, List.mem_append_left _ hmem, htype⟩
  · obtain ⟨type, hmem, htype⟩ := hys envelope h
    exact ⟨type, List.mem_append_right _ hmem, htype⟩

theorem HasTypes.flatMap {β : Type} {types : List String} {f : β → List ExplainabilityEnvelope}
    (h : ∀ x, HasTypes types (f x)) (xs : List β) : HasTypes types (xs.flatMap f) := by
  intro envelope henvelope
  obtain ⟨x, -, hx⟩ := List.mem_flatMap.mp henvelope
  exact h x envelope hx

/-- Lists of different types have no event in common. -/
theorem HasTypes.disjoint {types types' : List String} {xs ys : List ExplainabilityEnvelope}
    (hxs : HasTypes types xs) (hys : HasTypes types' ys) (h : ∀ type ∈ types, type ∉ types') :
    xs.Disjoint ys := by
  intro envelope hx hy
  obtain ⟨type, hmem, htype⟩ := hxs envelope hx
  obtain ⟨type', hmem', htype'⟩ := hys envelope hy
  obtain rfl : type = type' := Option.some_inj.mp (htype.symm.trans htype')
  exact h type hmem hmem'

/-! ### Ordered envelopes -/

/-- The sequences increase strictly. -/
def SequencesIncrease (envelopes : List ExplainabilityEnvelope) : Prop :=
  envelopes.Pairwise fun a b => a.sequence < b.sequence

instance : Decidable (SequencesIncrease envelopes) :=
  inferInstanceAs (Decidable (List.Pairwise _ _))

theorem SequencesIncrease.eq_of_sequence_eq (h : SequencesIncrease envelopes)
    {a b : ExplainabilityEnvelope} (ha : a ∈ envelopes) (hb : b ∈ envelopes)
    (hab : a.sequence = b.sequence) : a = b := by
  by_contra hne
  have hsymm : Std.Symm fun a b : ExplainabilityEnvelope => a.sequence ≠ b.sequence :=
    ⟨fun _ _ => Ne.symm⟩
  exact (h.imp fun hlt => ne_of_lt hlt).forall ha hb hne hab

/-- Envelopes of two types do not share a sequence. -/
theorem SequencesIncrease.lt_of_le {β : Type} {guard' : TypeGuard β}
    (h : SequencesIncrease envelopes) (htype : guard.type ≠ guard'.type) {a : TypedEnvelope guard}
    {b : TypedEnvelope guard'} (ha : a.envelope ∈ envelopes) (hb : b.envelope ∈ envelopes)
    (hle : a.sequence ≤ b.sequence) : a.sequence < b.sequence := by
  refine lt_of_le_of_ne hle ?_
  intro hab
  exact TypedEnvelope.envelope_ne_of_type_ne htype a b (h.eq_of_sequence_eq ha hb hab)

theorem SequencesIncrease.typedEnvelopes (h : SequencesIncrease envelopes) (guard : TypeGuard α) :
    (typedEnvelopes guard envelopes).Pairwise fun a b => a.sequence < b.sequence := by
  refine List.Pairwise.filterMap _ ?_ h
  intro a b hab x hx y hy
  rw [typedEnvelope_eq_some_iff] at hx hy
  rw [TypedEnvelope.sequence, TypedEnvelope.sequence, hx, hy]
  exact hab

/-- The last of the ordered rows that pass a test. -/
theorem last_filter_spec {β : Type} {key : β → ℚ} {p : β → Bool} {xs : List β} {x : β}
    (hsorted : xs.Pairwise fun a b => key a < key b) (h : last (xs.filter p) = some x) :
    x ∈ xs ∧ p x ∧ ∀ y ∈ xs, p y → key y ≤ key x := by
  obtain ⟨before, hbefore⟩ := List.getLast?_eq_some_iff.mp h
  have hmem : x ∈ xs.filter p := by simp [hbefore]
  refine ⟨(List.mem_filter.mp hmem).1, (List.mem_filter.mp hmem).2, ?_⟩
  intro y hy hp
  have hpair : (before ++ [x]).Pairwise fun a b => key a < key b := hbefore ▸ hsorted.filter _
  have hyx : y ∈ before ++ [x] := hbefore ▸ List.mem_filter.mpr ⟨hy, hp⟩
  rw [List.mem_append, List.mem_singleton] at hyx
  obtain hyx | rfl := hyx
  · exact le_of_lt ((List.pairwise_append.mp hpair).2.2 y hyx x (List.mem_singleton_self x))
  · exact le_refl _

end GraphLoom.Studio
