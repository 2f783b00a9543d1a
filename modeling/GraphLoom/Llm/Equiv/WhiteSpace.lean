import Mathlib.Data.Bool.AllAny
import GraphLoom.Llm.Parser
import Mathlib.Data.List.TakeWhile

/-!
# White space around records

What trimming leaves of a text, as lists of characters, and the delimiters of the records.
-/

namespace GraphLoom.Llm

open Foundation

/-! ### White space -/

/-- The text is white space. -/
def Blank (cs : List Char) : Prop := ∀ c ∈ cs, isWhiteSpace c = true

/-- The text neither starts nor ends with white space. -/
structure IsTrimmed (cs : List Char) : Prop where
  head : ∀ c, cs.head? = some c → isWhiteSpace c = false
  last : ∀ c, cs.getLast? = some c → isWhiteSpace c = false

theorem Blank.nil : Blank [] := fun _ hc => nomatch hc

theorem IsTrimmed.nil : IsTrimmed [] := ⟨fun _ hc => (nomatch hc), fun _ hc => (nomatch hc)⟩

def trimChars (cs : List Char) : List Char :=
  ((cs.dropWhile isWhiteSpace).reverse.dropWhile isWhiteSpace).reverse

theorem trim_eq (s : String) : trim s = String.ofList (trimChars s.toList) := rfl

theorem dropWhile_blank {blank : List Char} (h : Blank blank) (rest : List Char) :
    (blank ++ rest).dropWhile isWhiteSpace = rest.dropWhile isWhiteSpace :=
  List.dropWhile_append_of_pos h

theorem dropWhile_of_head {cs : List Char} (h : ∀ c, cs.head? = some c → isWhiteSpace c = false) :
    cs.dropWhile isWhiteSpace = cs := by
  cases cs with
  | nil => rfl
  | cons c cs => rw [List.dropWhile_cons_of_neg (by simp [h c rfl])]

theorem Blank.reverse {blank : List Char} (h : Blank blank) : Blank blank.reverse :=
  fun c hc => h c (List.mem_reverse.mp hc)

theorem Blank.append {blank blank' : List Char} (h : Blank blank) (h' : Blank blank') :
    Blank (blank ++ blank') := by
  intro c hc
  rcases List.mem_append.mp hc with hc | hc
  · exact h c hc
  · exact h' c hc

/-- What stands between white space is what is left of it. -/
theorem trimChars_pad {before core after : List Char} (hbefore : Blank before)
    (hcore : IsTrimmed core) (hafter : Blank after) : trimChars (before ++ (core ++ after)) = core := by
  unfold trimChars
  rw [dropWhile_blank hbefore]
  cases hnil : core with
  | nil =>
    have hall : after.dropWhile isWhiteSpace = [] := by
      rw [← List.append_nil after, dropWhile_blank hafter]
      rfl
    rw [List.nil_append, hall]
    rfl
  | cons c cs =>
    rw [← hnil]
    have hhead : ∀ x, (core ++ after).head? = some x → isWhiteSpace x = false := by
      intro x hx
      refine hcore.head x ?_
      rw [hnil] at hx ⊢
      exact hx
    have hlast : ∀ x, core.reverse.head? = some x → isWhiteSpace x = false := by
      intro x hx
      rw [List.head?_reverse] at hx
      exact hcore.last x hx
    rw [dropWhile_of_head hhead, List.reverse_append, dropWhile_blank hafter.reverse,
      dropWhile_of_head hlast, List.reverse_reverse]

/-- White space in front goes, and what stands before the last other character stays. -/
theorem trimChars_last (front : List Char) {c : Char} (hc : isWhiteSpace c = false)
    {after : List Char} (hafter : Blank after) :
    ∃ front', trimChars (front ++ c :: after) = front' ++ [c] := by
  have hdrop : ∃ front', (front ++ c :: after).dropWhile isWhiteSpace = front' ++ c :: after := by
    induction front with
    | nil => exact ⟨[], by rw [List.nil_append, List.dropWhile_cons_of_neg (by simp [hc])]⟩
    | cons x front ih =>
      rw [List.cons_append]
      by_cases hx : isWhiteSpace x = true
      · rw [List.dropWhile_cons_of_pos hx]
        exact ih
      · rw [List.dropWhile_cons_of_neg hx]
        exact ⟨x :: front, rfl⟩
  obtain ⟨front', hfront⟩ := hdrop
  refine ⟨front', ?_⟩
  have hreverse : (front' ++ c :: after).reverse = after.reverse ++ (c :: front'.reverse) := by simp
  rw [trimChars, hfront, hreverse, dropWhile_blank hafter.reverse,
    List.dropWhile_cons_of_neg (by simp [hc])]
  simp

theorem isWhiteSpace_head_dropWhile {cs : List Char} {c : Char}
    (h : (cs.dropWhile isWhiteSpace).head? = some c) : isWhiteSpace c = false := by
  have hhead := List.head?_dropWhile_not isWhiteSpace cs
  rw [h] at hhead
  exact hhead

theorem isTrimmed_trimChars (cs : List Char) : IsTrimmed (trimChars cs) := by
  constructor
  · intro c hc
    -- what is left is in front of what is dropped at the end
    have hstarts : trimChars cs <+: cs.dropWhile isWhiteSpace := by
      have hsuffix := List.dropWhile_suffix isWhiteSpace (l := (cs.dropWhile isWhiteSpace).reverse)
      simpa [trimChars] using List.reverse_prefix.mpr hsuffix
    obtain ⟨rest, hrest⟩ := hstarts
    refine @isWhiteSpace_head_dropWhile cs _ ?_
    rw [← hrest, List.head?_append, hc]
    rfl
  · intro c hc
    rw [trimChars, List.getLast?_reverse] at hc
    exact isWhiteSpace_head_dropWhile hc

theorem isTrimmed_of_trim {s : String} (h : trim s = s) : IsTrimmed s.toList := by
  have hchars : trimChars s.toList = s.toList := by
    rw [trim_eq, ← String.toList_inj, String.toList_ofList] at h
    exact h
  rw [← hchars]
  exact isTrimmed_trimChars s.toList

/-- A text is what trimming leaves of it, between white space. -/
theorem exists_pad (cs : List Char) : ∃ before after, cs = before ++ (trimChars cs ++ after) ∧
    Blank before ∧ Blank after := by
  have htake : ∀ cs : List Char, Blank (cs.takeWhile isWhiteSpace) := fun cs c hc =>
    List.mem_takeWhile_imp hc
  refine ⟨cs.takeWhile isWhiteSpace,
    ((cs.dropWhile isWhiteSpace).reverse.takeWhile isWhiteSpace).reverse, ?_, htake _,
    (htake _).reverse⟩
  rw [trimChars, ← List.reverse_append, List.takeWhile_append_dropWhile, List.reverse_reverse,
    List.takeWhile_append_dropWhile]

theorem trimChars_eq_nil_iff {cs : List Char} : trimChars cs = [] ↔ Blank cs := by
  constructor
  · intro h
    obtain ⟨before, after, hcs, hbefore, hafter⟩ := exists_pad cs
    rw [hcs, h, List.nil_append]
    exact hbefore.append hafter
  · intro h
    have hpad := trimChars_pad h IsTrimmed.nil Blank.nil
    rwa [List.append_nil, List.append_nil] at hpad

theorem trim_eq_empty_iff {s : String} : trim s = "" ↔ Blank s.toList := by
  rw [trim_eq, ← trimChars_eq_nil_iff, ← String.toList_inj, String.toList_ofList]
  rfl

/-! ### Delimiters and parentheses -/

theorem tupleDelimiter_toList : tupleDelimiter.toList = ['<', '|', '>'] := by decide

theorem recordDelimiter_toList : recordDelimiter.toList = ['#', '#'] := by decide

theorem completionDelimiter_toList :
    completionDelimiter.toList = "<|COMPLETE|".toList ++ ['>'] := by decide

theorem tupleDelimiter_separated {piece : List Char} (h : ¬ ['<', '|', '>'] <:+: piece) :
    Separated ['<', '|', '>'] piece := by
  refine separated_of_not_occurs h fun back _ hne hlength hstarts => ?_
  -- no end of a field and the front of a delimiter make a delimiter
  match back, hne, hlength with
  | [a], _, _ => simp [List.cons_prefix_cons] at hstarts
  | [a, b], _, _ => simp [List.cons_prefix_cons] at hstarts

theorem stripPrefix_ofList (front rest : List Char) :
    stripPrefix (String.ofList front) (String.ofList (front ++ rest)) = some (String.ofList rest) := by
  rw [stripPrefix_eq_some_iff, ← String.ofList_append]

theorem stripSuffix_ofList (rest back : List Char) :
    stripSuffix (String.ofList back) (String.ofList (rest ++ back)) = some (String.ofList rest) := by
  rw [stripSuffix_eq_some_iff, ← String.ofList_append]

end GraphLoom.Llm
