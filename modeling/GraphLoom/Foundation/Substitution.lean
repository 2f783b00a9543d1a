import GraphLoom.Foundation.Blocks
import GraphLoom.Foundation.Replace

/-!
# Substitution by replacements

A template is text with slots `{name}`.  Filling it puts a value in the place of every slot, all at
once.  Programs often do it by one replacement of a text after the other, which looks for a
placeholder in the values that are already in: this is filling if and only if no value that is in
has the placeholder in it (`onlyPlaceholders_iff`, `replaceAll_eq_fill`).
-/

namespace GraphLoom.Foundation

/-- The text of a slot. -/
def placeholder (name : List Char) : List Char := '{' :: (name ++ ['}'])

inductive TemplatePart where
  | text (text : List Char)
  | slot (name : List Char)
deriving DecidableEq

/-- The text of a template whose slots have the values `values`. -/
def fill (values : List Char → List Char) : List TemplatePart → List Char
  | [] => []
  | .text text :: parts => text ++ fill values parts
  | .slot name :: parts => values name ++ fill values parts

def templateText (parts : List TemplatePart) : List Char := fill placeholder parts

def slots : List TemplatePart → List (List Char)
  | [] => []
  | .text _ :: parts => slots parts
  | .slot name :: parts => name :: slots parts

/-! ### Templates whose slots stand apart -/

def isSlotNameChar (c : Char) : Bool := c.isAlphanum || c == '_'

def isSlotName (name : List Char) : Bool := name.all isSlotNameChar

def isPlaceholderChar (c : Char) : Bool := isSlotNameChar c || c == '{' || c == '}'

/-- The text after a slot does not begin with a character of a placeholder. -/
def startsApart : List TemplatePart → Bool
  | [] => true
  | .text (c :: _) :: _ => !isPlaceholderChar c
  | _ => false

/-- There are no braces but those of the slots, and the slots do not touch names. -/
def delimited : List TemplatePart → Bool
  | [] => true
  | .text text :: parts => text.all (fun c => c != '{' && c != '}') && delimited parts
  | .slot name :: parts => isSlotName name && startsApart parts && delimited parts

theorem placeholder_ne_nil (name : List Char) : placeholder name ≠ [] := List.cons_ne_nil _ _

theorem isPlaceholderChar_of_mem {name : List Char} (hname : isSlotName name = true) {c : Char}
    (h : c ∈ placeholder name) : isPlaceholderChar c = true := by
  rw [placeholder, List.mem_cons, List.mem_append, List.mem_singleton] at h
  rcases h with rfl | h | rfl
  · rfl
  · have := List.all_eq_true.mp hname c h
    simp [isPlaceholderChar, this]
  · rfl

theorem apart_of_startsApart {name : List Char} (hname : isSlotName name = true)
    {values : List Char → List Char} {parts : List TemplatePart} (h : startsApart parts = true) :
    Apart (placeholder name) (fill values parts) := by
  intro c hc hmem
  rcases parts with - | ⟨⟨- | ⟨d, text⟩⟩ | slot, parts⟩
  · simp [fill] at hc
  · cases h
  · obtain rfl : d = c := by simpa [fill] using hc
    rw [startsApart, isPlaceholderChar_of_mem hname hmem] at h
    cases h
  · cases h

/-- A name is between braces only in its own placeholder. -/
theorem placeholder_infix_iff {name slot : List Char} (hslot : isSlotName slot = true) :
    placeholder name <:+: placeholder slot ↔ name = slot := by
  constructor
  · intro h
    have hopen : ∀ {text : List Char}, isSlotName text = true → '{' ∉ text ++ ['}'] := by
      intro text htext hmem
      rcases List.mem_append.mp hmem with hmem | hmem
      · exact absurd (List.all_eq_true.mp htext _ hmem) (by decide)
      · exact absurd hmem (by decide)
    rcases List.infix_cons_iff.mp h with h | h
    · have hprefix : name ++ ['}'] <+: slot ++ ['}'] := (List.cons_prefix_cons.mp h).2
      obtain ⟨rest, hrest⟩ := hprefix
      have hclose : '}' ∉ slot := fun hmem =>
        absurd (List.all_eq_true.mp hslot _ hmem) (by decide)
      rcases List.eq_nil_or_concat rest with rfl | ⟨front, c, rfl⟩
      · rw [List.append_nil] at hrest
        exact List.append_cancel_right hrest
      · rw [List.concat_eq_append, ← List.append_assoc] at hrest
        have hslot' : name ++ ['}'] ++ front = slot := (List.append_inj' hrest rfl).1
        exact absurd (by rw [← hslot']; simp) hclose
    · have hmem : '{' ∈ slot ++ ['}'] := h.subset (List.mem_cons_self ..)
      exact absurd hmem (hopen hslot)
  · rintro rfl
    exact List.infix_refl _

/-! ### Replacing one placeholder -/

section Replace

variable {name : List Char} (hname : isSlotName name = true) (new : List Char)
  (values : List Char → List Char) {parts : List TemplatePart} (h : delimited parts = true)

/-- The text of a template does not begin a placeholder. -/
theorem placeholder_not_at {c : Char} (hc : c ≠ '{') (text : List Char) :
    ¬ placeholder name <+: c :: text := by
  intro hprefix
  exact hc (List.cons_prefix_cons.mp hprefix).1.symm

theorem replace_text {text : List Char} (htext : text.all (fun c => c != '{' && c != '}') = true)
    (rest : List Char) : replace (placeholder name) new (text ++ rest) =
      text ++ replace (placeholder name) new rest := by
  induction text with
  | nil => rfl
  | cons c text ih =>
    rw [List.all_cons, Bool.and_eq_true, Bool.and_eq_true, bne_iff_ne] at htext
    rw [List.cons_append, replace_cons_kept (placeholder_not_at htext.1.1 _), ih htext.2,
      List.cons_append]

theorem occurrences_text {text : List Char}
    (htext : text.all (fun c => c != '{' && c != '}') = true) (rest : List Char) :
    occurrences (placeholder name) (text ++ rest) = occurrences (placeholder name) rest := by
  induction text with
  | nil => rfl
  | cons c text ih =>
    rw [List.all_cons, Bool.and_eq_true, Bool.and_eq_true, bne_iff_ne] at htext
    rw [List.cons_append, occurrences_cons_kept (placeholder_not_at htext.1.1 _), ih htext.2]

include hname h

/-- A replacement in a filled template is a replacement in the values. -/
theorem replace_fill : replace (placeholder name) new (fill values parts) =
    fill (fun slot => replace (placeholder name) new (values slot)) parts := by
  induction parts with
  | nil => rfl
  | cons part parts ih =>
    cases part with
    | text text =>
      rw [delimited, Bool.and_eq_true] at h
      rw [fill, fill, replace_text new h.1, ih h.2]
    | slot slot =>
      rw [delimited, Bool.and_eq_true, Bool.and_eq_true] at h
      have hapart : Apart (placeholder name) (fill values parts) :=
        apart_of_startsApart hname h.1.2
      rw [fill, fill, replace_append_apart (placeholder_ne_nil name) hapart, ih h.2]

theorem occurrences_fill : occurrences (placeholder name) (fill values parts) =
    ((slots parts).map fun slot => occurrences (placeholder name) (values slot)).sum := by
  induction parts with
  | nil => rfl
  | cons part parts ih =>
    cases part with
    | text text =>
      rw [delimited, Bool.and_eq_true] at h
      rw [fill, occurrences_text h.1, ih h.2, slots]
    | slot slot =>
      rw [delimited, Bool.and_eq_true, Bool.and_eq_true] at h
      have hapart : Apart (placeholder name) (fill values parts) :=
        apart_of_startsApart hname h.1.2
      rw [fill, occurrences_append_apart (placeholder_ne_nil name) hapart, ih h.2, slots,
        List.map_cons, List.sum_cons]

end Replace

theorem fill_congr {values values' : List Char → List Char} {parts : List TemplatePart}
    (h : ∀ slot ∈ slots parts, values slot = values' slot) :
    fill values parts = fill values' parts := by
  induction parts with
  | nil => rfl
  | cons part parts ih =>
    cases part with
    | text text => rw [fill, fill, ih h]
    | slot slot =>
      rw [fill, fill, h slot (List.mem_cons_self ..),
        ih fun slot' hslot => h slot' (List.mem_cons_of_mem slot hslot)]

theorem isSlotName_of_mem {parts : List TemplatePart} (h : delimited parts = true)
    {slot : List Char} (hslot : slot ∈ slots parts) : isSlotName slot = true := by
  induction parts with
  | nil => cases hslot
  | cons part parts ih =>
    cases part with
    | text text =>
      rw [delimited, Bool.and_eq_true] at h
      exact ih h.2 hslot
    | slot slot' =>
      rw [delimited, Bool.and_eq_true, Bool.and_eq_true] at h
      rcases List.mem_cons.mp hslot with rfl | hslot
      · exact h.1.1
      · exact ih h.2 hslot

/-! ### One replacement after the other -/

/-- A replacement: the name of a placeholder and its value. -/
abbrev Pass := List Char × List Char

def replaceAll (text : List Char) (passes : List Pass) : List Char :=
  passes.foldl (fun text pass => replace (placeholder pass.1) pass.2 text) text

/-- Every replacement finds as many placeholders as the template has: none in a value that is in. -/
def OnlyPlaceholders (template : List Char) : List Char → List Pass → Prop
  | _, [] => True
  | text, (name, value) :: passes =>
    occurrences (placeholder name) text = occurrences (placeholder name) template ∧
      OnlyPlaceholders template (replace (placeholder name) value text) passes

/-- The value that the replacements give a slot; a slot without one keeps its placeholder. -/
def valueOf (passes : List Pass) (slot : List Char) : List Char :=
  (passes.lookup slot).getD (placeholder slot)

/-- The later placeholder is not in the value of the earlier one, if the template has it. -/
def Harmless (parts : List TemplatePart) (earlier later : Pass) : Prop :=
  earlier.1 ∈ slots parts → ¬ placeholder later.1 <:+: earlier.2

theorem lookup_of_nodup {passes : List Pass} (h : (passes.map Prod.fst).Nodup) {pass : Pass}
    (hmem : pass ∈ passes) : passes.lookup pass.1 = some pass.2 := by
  induction passes with
  | nil => cases hmem
  | cons pass' passes ih =>
    rw [List.map_cons, List.nodup_cons] at h
    rcases List.mem_cons.mp hmem with rfl | hmem
    · rw [List.lookup_cons_self]
    · have hne : pass.1 ≠ pass'.1 := by
        intro heq
        exact h.1 (heq ▸ List.mem_map_of_mem hmem)
      rw [List.lookup_cons, beq_eq_false_iff_ne.mpr hne]
      exact ih h.2 hmem

theorem lookup_eq_none {passes : List Pass} {slot : List Char}
    (h : slot ∉ passes.map Prod.fst) : passes.lookup slot = none := by
  induction passes with
  | nil => rfl
  | cons pass passes ih =>
    rw [List.map_cons, List.mem_cons, not_or] at h
    rw [List.lookup_cons, beq_eq_false_iff_ne.mpr h.1]
    exact ih h.2

theorem valueOf_of_mem {passes : List Pass} (h : (passes.map Prod.fst).Nodup) {pass : Pass}
    (hmem : pass ∈ passes) : valueOf passes pass.1 = pass.2 := by
  rw [valueOf, lookup_of_nodup h hmem, Option.getD_some]

theorem valueOf_of_not_mem {passes : List Pass} {slot : List Char}
    (h : slot ∉ passes.map Prod.fst) : valueOf passes slot = placeholder slot := by
  rw [valueOf, lookup_eq_none h, Option.getD_none]

/-- A slot has the value of a replacement, or it has none. -/
theorem slot_cases (passes : List Pass) (slot : List Char) :
    (∃ pass ∈ passes, pass.1 = slot) ∨ slot ∉ passes.map Prod.fst := by
  by_cases h : slot ∈ passes.map Prod.fst
  · exact Or.inl (List.mem_map.mp h)
  · exact Or.inr h

section Passes

variable {parts : List TemplatePart} (hparts : delimited parts = true)

section Step

variable {done : List Pass} {pass : Pass} (hname : isSlotName pass.1 = true)
  (hnodup : ((done ++ [pass]).map Prod.fst).Nodup)
include hnodup

theorem nodup_done : (done.map Prod.fst).Nodup ∧ ∀ pass' ∈ done, pass.1 ≠ pass'.1 := by
  rw [List.map_append, List.nodup_append] at hnodup
  refine ⟨hnodup.1, fun pass' hmem heq => ?_⟩
  exact hnodup.2.2 pass'.1 (List.mem_map_of_mem hmem) pass.1 (List.mem_singleton_self _) heq.symm

include hparts hname

/-- A replacement finds only the placeholders of the template when no value that is in has its
placeholder. -/
theorem occurrences_fill_valueOf :
    occurrences (placeholder pass.1) (fill (valueOf done) parts) =
        occurrences (placeholder pass.1) (templateText parts) ↔
      ∀ pass' ∈ done, Harmless parts pass' pass := by
  obtain ⟨hdone, hne⟩ := nodup_done hnodup
  have hzero : ∀ pass' ∈ done, pass'.1 ∈ slots parts →
      occurrences (placeholder pass.1) (placeholder pass'.1) = 0 := by
    intro pass' hmem hslot
    rw [occurrences_eq_zero_iff (placeholder_ne_nil _),
      placeholder_infix_iff (isSlotName_of_mem hparts hslot)]
    exact hne pass' hmem
  rw [templateText, occurrences_fill hname _ hparts, occurrences_fill hname _ hparts,
    sum_map_eq_iff]
  · constructor
    · intro h pass' hmem hslot
      have heq := h pass'.1 hslot
      rw [valueOf_of_mem hdone hmem, hzero pass' hmem hslot] at heq
      exact (occurrences_eq_zero_iff (placeholder_ne_nil _)).mp heq
    · intro h slot hslot
      rcases slot_cases done slot with ⟨pass', hmem, rfl⟩ | hnot
      · rw [valueOf_of_mem hdone hmem, hzero pass' hmem hslot]
        exact (occurrences_eq_zero_iff (placeholder_ne_nil _)).mpr (h pass' hmem hslot)
      · rw [valueOf_of_not_mem hnot]
  · intro slot hslot
    rcases slot_cases done slot with ⟨pass', hmem, rfl⟩ | hnot
    · rw [hzero pass' hmem hslot]
      exact Nat.zero_le _
    · exact Nat.le_of_eq (by rw [valueOf_of_not_mem hnot])

theorem replace_fill_valueOf (h : ∀ pass' ∈ done, Harmless parts pass' pass) :
    replace (placeholder pass.1) pass.2 (fill (valueOf done) parts) =
      fill (valueOf (done ++ [pass])) parts := by
  obtain ⟨hdone, hne⟩ := nodup_done hnodup
  rw [replace_fill hname _ _ hparts]
  refine fill_congr fun slot hslot => ?_
  rcases slot_cases done slot with ⟨pass', hmem, rfl⟩ | hnot
  · rw [valueOf_of_mem hdone hmem, valueOf_of_mem hnodup (List.mem_append_left _ hmem)]
    exact replace_eq_self (placeholder_ne_nil _) _ (h pass' hmem hslot)
  · rw [valueOf_of_not_mem hnot]
    by_cases heq : pass.1 = slot
    · subst heq
      have hself := replace_append_self (placeholder_ne_nil pass.1) pass.2 []
      rw [List.append_nil, replace_nil, List.append_nil] at hself
      rw [hself, valueOf_of_mem hnodup (List.mem_append_right _ (List.mem_singleton_self pass))]
    · have hinfix : ¬ placeholder pass.1 <:+: placeholder slot := by
        rw [placeholder_infix_iff (isSlotName_of_mem hparts hslot)]
        exact heq
      rw [replace_eq_self (placeholder_ne_nil _) _ hinfix, valueOf_of_not_mem]
      rw [List.map_append, List.mem_append, not_or]
      exact ⟨hnot, fun hmem => heq (List.mem_singleton.mp hmem).symm⟩

end Step

include hparts

/-- What the replacements do after those that are done. -/
theorem passes_spec {done passes : List Pass}
    (hnames : ∀ pass ∈ passes, isSlotName pass.1 = true)
    (hnodup : ((done ++ passes).map Prod.fst).Nodup) :
    (OnlyPlaceholders (templateText parts) (fill (valueOf done) parts) passes ↔
      passes.Pairwise (Harmless parts) ∧
        ∀ pass ∈ done, ∀ pass' ∈ passes, Harmless parts pass pass') ∧
    (OnlyPlaceholders (templateText parts) (fill (valueOf done) parts) passes →
      replaceAll (fill (valueOf done) parts) passes = fill (valueOf (done ++ passes)) parts) := by
  induction passes generalizing done with
  | nil =>
    refine ⟨iff_of_true trivial ⟨List.Pairwise.nil, fun _ _ _ h => by cases h⟩, fun _ => ?_⟩
    rw [List.append_nil]
    rfl
  | cons pass passes ih =>
    obtain ⟨name, value⟩ := pass
    have hname := hnames (name, value) (List.mem_cons_self ..)
    rw [List.append_cons] at hnodup
    have hstep : ((done ++ [(name, value)]).map Prod.fst).Nodup := by
      rw [List.map_append] at hnodup
      exact (List.nodup_append.mp hnodup).1
    obtain ⟨hiff, hall⟩ := ih (fun pass hmem => hnames pass (List.mem_cons_of_mem _ hmem)) hnodup
    have hclean := occurrences_fill_valueOf hparts hname hstep
    rw [OnlyPlaceholders, hclean]
    constructor
    · constructor
      · rintro ⟨hdone, hrest⟩
        rw [replace_fill_valueOf hparts hname hstep hdone] at hrest
        obtain ⟨hpairwise, hmore⟩ := hiff.mp hrest
        refine ⟨List.pairwise_cons.mpr ⟨fun pass' hmem => ?_, hpairwise⟩, fun pass' hmem => ?_⟩
        · exact hmore _ (List.mem_append_right _ (List.mem_singleton_self _)) pass' hmem
        · exact List.forall_mem_cons.mpr
            ⟨hdone pass' hmem, hmore pass' (List.mem_append_left _ hmem)⟩
      · rintro ⟨hpairwise, hmore⟩
        obtain ⟨hfirst, hpairwise⟩ := List.pairwise_cons.mp hpairwise
        have hdone : ∀ pass' ∈ done, Harmless parts pass' (name, value) := fun pass' hmem =>
          hmore pass' hmem _ (List.mem_cons_self ..)
        refine ⟨hdone, ?_⟩
        rw [replace_fill_valueOf hparts hname hstep hdone]
        refine hiff.mpr ⟨hpairwise, fun pass' hmem => ?_⟩
        rcases List.mem_append.mp hmem with hmem | hmem
        · exact fun later hlater => hmore pass' hmem later (List.mem_cons_of_mem _ hlater)
        · rw [List.mem_singleton.mp hmem]
          exact hfirst
    · rintro ⟨hdone, hrest⟩
      have hfill := replace_fill_valueOf hparts hname hstep hdone
      rw [hfill] at hrest
      have hrun := hall hrest
      rw [List.append_assoc] at hrun
      show replaceAll (replace (placeholder name) value (fill (valueOf done) parts)) passes = _
      rw [hfill]
      exact hrun

variable {passes : List Pass} (hnames : ∀ pass ∈ passes, isSlotName pass.1 = true)
  (hnodup : (passes.map Prod.fst).Nodup)
include hnames hnodup

/-- The replacements leave the values alone if and only if no value has a later placeholder in
it. -/
theorem onlyPlaceholders_iff :
    OnlyPlaceholders (templateText parts) (templateText parts) passes ↔
      passes.Pairwise (Harmless parts) := by
  have hnil : ((([] : List Pass) ++ passes).map Prod.fst).Nodup := hnodup
  exact (passes_spec hparts hnames hnil).1.trans (and_iff_left fun _ h => by cases h)

/-- Then they fill the template. -/
theorem replaceAll_eq_fill
    (h : OnlyPlaceholders (templateText parts) (templateText parts) passes) :
    replaceAll (templateText parts) passes = fill (valueOf passes) parts := by
  have hnil : ((([] : List Pass) ++ passes).map Prod.fst).Nodup := hnodup
  exact (passes_spec hparts hnames hnil).2 h

end Passes

end GraphLoom.Foundation
