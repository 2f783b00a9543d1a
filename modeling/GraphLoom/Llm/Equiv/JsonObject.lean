import GraphLoom.Foundation.JsonMeaning
import GraphLoom.Llm.Equiv.WhiteSpace

/-!
# JSON objects in an answer

An object with text around it is cleaned up before it is read.  The cleanup keeps its value when its
text holds no backslash and none of the four patterns that are replaced, and only then when no name
is repeated in it (`tryParseJsonObject_keeps_iff`).
-/

namespace GraphLoom.Llm

open Foundation Json JsonText

/-! ### The replacements -/

/-- The text holds a backslash or one of the patterns that are replaced. -/
def Rewritten (text : List Char) : Prop :=
  '\\' ∈ text ∨ ['{', '{'] <:+: text ∨ ['}', '}'] <:+: text ∨ ['"', '[', '{'] <:+: text ∨
    ['}', ']', '"'] <:+: text

/-- What becomes of a character behind the replacements of patterns. -/
def spaced (c : Char) : List Char :=
  if c = '\\' ∨ c = '\n' then [' '] else if c = '\r' then [] else [c]

variable {text front inner back : List Char} {c : Char}

theorem spaced_respaces : Respaces spaced where
  blank c hc := by
    unfold JsonText.Blank
    rcases isBlank_iff.mp hc with rfl | rfl | rfl | rfl <;> exact List.all_eq_true.mp (by decide)
  kept c hle hslash := by
    have hnewline : c ≠ '\n' := by rintro rfl; exact absurd hle (by decide)
    have hreturn : c ≠ '\r' := by rintro rfl; exact absurd hle (by decide)
    rw [spaced, if_neg (by simp [hslash, hnewline]), if_neg hreturn]

theorem not_mem_spaced (text : List Char) : '\\' ∉ text.flatMap spaced := by
  rw [List.mem_flatMap]
  rintro ⟨d, -, hd⟩
  rw [spaced] at hd
  split at hd
  · exact absurd hd (by decide)
  · next hslash =>
    split at hd
    · exact nomatch hd
    · exact hslash (.inl (List.mem_singleton.mp hd).symm)

/-- The replacements of single characters. -/
theorem replace_spaced (text : List Char) :
    replace ['\r'] [] (replace ['\n'] [' '] (replace ['\\', 'n'] [' ']
      (replace ['\\'] [' '] text))) = text.flatMap spaced := by
  have hslash : ¬ ['\\', 'n'] <:+: replace ['\\'] [' '] text := by
    intro hpattern
    have hmem : '\\' ∈ replace ['\\'] [' '] text := hpattern.subset (List.mem_cons_self ..)
    rw [replace_singleton, List.mem_flatMap] at hmem
    obtain ⟨d, -, hd⟩ := hmem
    split at hd
    · exact absurd hd (by decide)
    · next hne => exact hne (List.mem_singleton.mp hd).symm
  rw [replace_eq_self (by decide) _ hslash, replace_singleton, replace_singleton,
    replace_singleton, List.flatMap_assoc, List.flatMap_assoc]
  apply List.flatMap_congr
  intro d _
  by_cases hd : d = '\\'
  · subst hd; rfl
  · by_cases hnewline : d = '\n'
    · subst hnewline; rfl
    · simp [spaced, hd, hnewline]

theorem normalizeJson_eq (text : List Char) :
    normalizeJson text = (replace ['}', ']', '"'] ['}', ']'] (replace ['"', '[', '{'] ['[', '{']
      (replace ['}', '}'] ['}'] (replace ['{', '{'] ['{'] text)))).flatMap spaced :=
  replace_spaced _

/-- Without a backslash and the patterns, only white space is replaced. -/
theorem normalizeJson_of_not_rewritten (h : ¬ Rewritten text) :
    normalizeJson text = text.flatMap spaced := by
  simp only [Rewritten, not_or] at h
  rw [normalizeJson_eq, replace_eq_self (by decide) _ h.2.1, replace_eq_self (by decide) _ h.2.2.1,
    replace_eq_self (by decide) _ h.2.2.2.1, replace_eq_self (by decide) _ h.2.2.2.2]

theorem count_spaced (hc : c = '{' ∨ c = '}' ∨ c = '"') (text : List Char) :
    (text.flatMap spaced).count c = text.count c := by
  induction text with
  | nil => rfl
  | cons d text ih =>
    have hhead : (spaced d).count c = [d].count c := by
      rw [spaced]
      split
      · next hd => rcases hd with rfl | rfl <;> rcases hc with rfl | rfl | rfl <;> rfl
      · split
        · next hd => subst hd; rcases hc with rfl | rfl | rfl <;> rfl
        · rfl
    rw [List.flatMap_cons, List.count_append, hhead, ih, ← List.count_append]
    rfl

/-- Each pattern that is replaced takes a brace or a quote from the text. -/
theorem not_pattern_of_count
    (h : ∀ c, c = '{' ∨ c = '}' ∨ c = '"' → text.count c ≤ (normalizeJson text).count c) :
    ¬ ['{', '{'] <:+: text ∧ ¬ ['}', '}'] <:+: text ∧ ¬ ['"', '[', '{'] <:+: text ∧
      ¬ ['}', ']', '"'] <:+: text := by
  have hopen := h '{' (.inl rfl)
  have hclose := h '}' (.inr (.inl rfl))
  have hquote := h '"' (.inr (.inr rfl))
  rw [normalizeJson_eq, count_spaced (.inl rfl)] at hopen
  rw [normalizeJson_eq, count_spaced (.inr (.inl rfl))] at hclose
  rw [normalizeJson_eq, count_spaced (.inr (.inr rfl))] at hquote
  have hstep {pattern new : List Char} (hne : pattern ≠ []) {c : Char}
      (hle : new.count c ≤ pattern.count c) (text : List Char) :
      (replace pattern new text).count c ≤ text.count c :=
    (Nat.le_add_right ..).trans (count_replace hne hle text).le
  have hnone {pattern new text : List Char} (hne : pattern ≠ []) {c : Char}
      (hlt : new.count c < pattern.count c)
      (hcount : text.count c ≤ (replace pattern new text).count c) : ¬ pattern <:+: text := by
    have hsum := count_replace hne hlt.le text
    rw [← occurrences_eq_zero_iff hne]
    rcases Nat.eq_zero_or_pos (occurrences pattern text) with hzero | hpos
    · exact hzero
    · have := Nat.mul_pos hpos (Nat.sub_pos_of_lt hlt)
      omega
  -- the counts go down with each of the replacements
  have hfirst : ¬ ['{', '{'] <:+: text := by
    apply hnone (by decide) (show ['{'].count '{' < _ by decide)
    exact hopen.trans ((hstep (by decide) (by decide) _).trans
      ((hstep (by decide) (by decide) _).trans (hstep (by decide) (by decide) _)))
  rw [replace_eq_self (by decide) _ hfirst] at hclose hquote
  have hsecond : ¬ ['}', '}'] <:+: text := by
    apply hnone (by decide) (show ['}'].count '}' < _ by decide)
    exact hclose.trans ((hstep (by decide) (by decide) _).trans (hstep (by decide) (by decide) _))
  rw [replace_eq_self (by decide) _ hsecond] at hquote
  have hthird : ¬ ['"', '[', '{'] <:+: text := by
    apply hnone (by decide) (show ['[', '{'].count '"' < _ by decide)
    exact hquote.trans (hstep (by decide) (by decide) _)
  rw [replace_eq_self (by decide) _ hthird] at hquote
  exact ⟨hfirst, hsecond, hthird,
    hnone (by decide) (show ['}', ']'].count '"' < _ by decide) hquote⟩

/-! ### The object in the text -/

theorem findChar_append (hfront : c ∉ front) (back : List Char) :
    findChar c (front ++ c :: back) = some front.length := by
  rw [findChar, List.findIdx?_append]
  have hnone : front.findIdx? (· = c) = none := by
    rw [List.findIdx?_eq_none_iff]
    rintro d hd
    exact decide_eq_false fun heq => hfront (heq ▸ hd)
  rw [hnone, List.findIdx?_cons, decide_eq_true rfl]
  simp

theorem rfindChar_append (hback : c ∉ back) (front : List Char) :
    rfindChar c (front ++ c :: back) = some front.length := by
  have hfind := @findChar_append back.reverse c (fun hmem => hback (List.mem_reverse.mp hmem))
    front.reverse
  rw [findChar] at hfind
  rw [rfindChar, List.reverse_append, List.reverse_cons, List.append_assoc, List.singleton_append,
    hfind, Option.map_some, List.length_append, List.length_cons, List.length_reverse]
  congr 1
  omega

/-- The text from the first brace that opens to the last one that closes. -/
theorem extractJsonObject_eq {input : String}
    (hinput : input.toList = front ++ '{' :: (inner ++ '}' :: back)) (hfront : '{' ∉ front)
    (hback : '}' ∉ back) :
    extractJsonObject input = some (String.ofList ('{' :: (inner ++ ['}']))) := by
  have hsplit : front ++ '{' :: (inner ++ '}' :: back) =
      (front ++ '{' :: inner) ++ '}' :: back := by simp
  have hwhole : (front ++ '{' :: inner) ++ '}' :: back =
      (front ++ '{' :: (inner ++ ['}'])) ++ back := by simp
  have hstop : (front ++ '{' :: inner).length + 1 = (front ++ '{' :: (inner ++ ['}'])).length := by
    simp only [List.length_append, List.length_cons, List.length_nil]
    omega
  rw [extractJsonObject, hinput, findChar_append hfront, hsplit, rfindChar_append hback]
  show (if (front ++ '{' :: inner).length ≥ front.length then _ else _) = _
  rw [if_pos (by simp), hstop, hwhole, List.take_left, List.drop_left]

/-- White space and fences are cut off at the ends. -/
theorem cleanJsonObject_sublist {input object : String}
    (hobject : extractJsonObject input = some object) :
    (cleanJsonObject input).toList.Sublist (normalizeJson object.toList) := by
  have htrim (s : String) : (trim s).toList.Sublist s.toList := by
    obtain ⟨before, after, hpad, -, -⟩ := exists_pad s.toList
    rw [trim_eq, String.toList_ofList]
    exact (List.infix_iff_prefix_suffix.mpr ⟨_, ⟨after, rfl⟩, ⟨before, hpad.symm⟩⟩).sublist
  have hstart (fence s : String) : ((stripPrefix fence s).getD s).toList.Sublist s.toList := by
    cases hstrip : stripPrefix fence s with
    | none => exact .refl _
    | some rest =>
      rw [stripPrefix_eq_some_iff.mp hstrip, Option.getD_some, String.toList_append]
      exact List.sublist_append_right ..
  have hstop (fence s : String) : ((stripSuffix fence s).getD s).toList.Sublist s.toList := by
    cases hstrip : stripSuffix fence s with
    | none => exact .refl _
    | some rest =>
      rw [stripSuffix_eq_some_iff.mp hstrip, Option.getD_some, String.toList_append]
      exact List.sublist_append_left ..
  rw [cleanJsonObject, hobject, Option.getD_some]
  have hfirst := htrim (String.ofList (normalizeJson object.toList))
  rw [String.toList_ofList] at hfirst
  exact (htrim _).trans ((hstop _ _).trans ((hstart _ _).trans hfirst))

/-- Nothing is cut off from a text between braces. -/
theorem cleanJsonObject_eq {input object : String}
    (hobject : extractJsonObject input = some object)
    (hnormalized : normalizeJson object.toList = '{' :: (inner ++ ['}'])) :
    cleanJsonObject input = String.ofList ('{' :: (inner ++ ['}'])) := by
  have htrimmed : IsTrimmed ('{' :: (inner ++ ['}'])) := by
    constructor
    · intro d hd
      obtain rfl := Option.some.inj hd
      decide
    · intro d hd
      rw [← List.cons_append, List.getLast?_append, List.getLast?_singleton] at hd
      obtain rfl := Option.some.inj hd
      decide
  have htrim : trim (String.ofList ('{' :: (inner ++ ['}']))) =
      String.ofList ('{' :: (inner ++ ['}'])) := by
    have hpad := trimChars_pad Blank.nil htrimmed Blank.nil
    rw [List.nil_append, List.append_nil] at hpad
    rw [trim_eq, String.toList_ofList, hpad]
  have hstart : stripPrefix "```json" (String.ofList ('{' :: (inner ++ ['}']))) = none := by
    rw [Option.eq_none_iff_forall_ne_some]
    intro rest hrest
    have hchars := congrArg String.toList (stripPrefix_eq_some_iff.mp hrest)
    rw [String.toList_ofList, String.toList_append] at hchars
    exact absurd (List.cons.inj hchars).1 (by decide)
  have hstop : stripSuffix "```" (String.ofList ('{' :: (inner ++ ['}']))) = none := by
    rw [Option.eq_none_iff_forall_ne_some]
    intro rest hrest
    have hchars := congrArg String.toList (stripSuffix_eq_some_iff.mp hrest)
    have hlast := congrArg List.getLast? hchars
    rw [String.toList_ofList, String.toList_append, ← List.cons_append, List.getLast?_append,
      List.getLast?_append] at hlast
    exact absurd (Option.some.inj hlast) (by decide)
  rw [cleanJsonObject, hobject, Option.getD_some, hnormalized]
  rw [htrim, hstart, Option.getD_none, hstop, Option.getD_none, htrim]

/-! ### White space around the object -/

variable {before after pattern : List Char}

theorem occurs_of_pad (hne : pattern ≠ []) (hpattern : ∀ c ∈ pattern, isBlank c = false)
    (hbefore : JsonText.Blank before) (hafter : JsonText.Blank after)
    (h : pattern <:+: before ++ (text ++ after)) : pattern <:+: text := by
  have hfront {blank pattern rest : List Char} (hne : pattern ≠ [])
      (hpattern : ∀ c ∈ pattern, isBlank c = false) (hblank : JsonText.Blank blank)
      (h : pattern <:+: blank ++ rest) : pattern <:+: rest := by
    induction blank with
    | nil => exact h
    | cons c blank ih =>
      rcases List.infix_cons_iff.mp h with hstart | hrest
      · obtain ⟨d, pattern, rfl⟩ := List.exists_cons_of_ne_nil hne
        obtain ⟨rfl, -⟩ := List.cons_prefix_cons.mp hstart
        have hc := hblank d (List.mem_cons_self ..)
        rw [hpattern d (List.mem_cons_self ..)] at hc
        exact nomatch hc
      · exact ih (fun d hd => hblank d (List.mem_cons_of_mem _ hd)) hrest
  have hback := List.reverse_infix.mpr (hfront hne hpattern hbefore h)
  rw [List.reverse_append] at hback
  refine List.reverse_infix.mp (hfront (List.reverse_ne_nil_iff.mpr hne) ?_ ?_ hback)
  · exact fun c hc => hpattern c (List.mem_reverse.mp hc)
  · exact fun c hc => hafter c (List.mem_reverse.mp hc)

/-- What is replaced in a text is no white space around it. -/
theorem rewritten_pad_iff (hbefore : JsonText.Blank before) (hafter : JsonText.Blank after) :
    Rewritten (before ++ (text ++ after)) ↔ Rewritten text := by
  have hoccurs {pattern : List Char} (hne : pattern ≠ [])
      (hpattern : (pattern.all fun c => isBlank c = false) = true) :
      pattern <:+: before ++ (text ++ after) ↔ pattern <:+: text :=
    ⟨occurs_of_pad hne (List.all_iff_forall_prop.mp hpattern) hbefore hafter,
      fun h => h.trans ⟨before, after, List.append_assoc ..⟩⟩
  have hslash : '\\' ∈ before ++ (text ++ after) ↔ '\\' ∈ text := by
    rw [List.mem_append, List.mem_append]
    constructor
    · rintro (hmem | hmem | hmem)
      · exact absurd (hbefore _ hmem) (by decide)
      · exact hmem
      · exact absurd (hafter _ hmem) (by decide)
    · exact fun hmem => .inr (.inl hmem)
  rw [Rewritten, Rewritten, hslash, hoccurs (by decide) (by decide),
    hoccurs (by decide) (by decide), hoccurs (by decide) (by decide),
    hoccurs (by decide) (by decide)]

/-! ### Reading the object -/

variable {number : List Char → Option Number} {unique : Bool} {depth depth' : ℕ}
  {fromStr : String → Except String Value} {p v q input : String} {value : Value} {entries : Map}

theorem exists_core (hp : '{' ∉ p.toList) (hq : '}' ∉ q.toList)
    (hv : Says number unique depth v.toList (.object entries)) :
    ∃ before inner after, JsonText.Blank before ∧ JsonText.Blank after ∧
      v.toList = before ++ ('{' :: (inner ++ ['}']) ++ after) ∧
      Says number unique depth ('{' :: (inner ++ ['}'])) (.object entries) ∧
      extractJsonObject (p ++ v ++ q) = some (String.ofList ('{' :: (inner ++ ['}']))) := by
  obtain ⟨before, inner, after, hbefore, hafter, htext, hsaid⟩ := hv.exists_object
  refine ⟨before, inner, after, hbefore, hafter, by rw [htext]; simp, hsaid, ?_⟩
  refine @extractJsonObject_eq (p.toList ++ before) inner (after ++ q.toList) _ ?_ ?_ ?_
  · rw [String.toList_append, String.toList_append, htext]
    simp
  · rw [List.mem_append, not_or]
    exact ⟨hp, fun hmem => absurd (hbefore _ hmem) (by decide)⟩
  · rw [List.mem_append, not_or]
    exact ⟨fun hmem => absurd (hafter _ hmem) (by decide), hq⟩

/-- A text that is an object as a whole has nothing but white space around one. -/
theorem blank_of_read (hp : '{' ∉ p.toList) (hq : '}' ∉ q.toList)
    (hv : Says number unique depth v.toList (.object entries)) {entries' : Map}
    (hinput : Says number unique depth' (p ++ v ++ q).toList (.object entries')) :
    JsonText.Blank p.toList ∧ JsonText.Blank q.toList := by
  have hfront {c : Char} {front front' back back' : List Char} (h : c ∉ front) (h' : c ∉ front')
      (heq : front ++ c :: back = front' ++ c :: back') : front = front' := by
    refine (append_inj_of_span (p := (· != c)) ?_ ?_ ?_ ?_ heq).1
    · exact fun d hd => bne_iff_ne.mpr fun heq => h (heq ▸ hd)
    · exact fun d hd => bne_iff_ne.mpr fun heq => h' (heq ▸ hd)
    · rintro d hd
      obtain rfl := Option.some.inj hd
      exact bne_self_eq_false c
    · rintro d hd
      obtain rfl := Option.some.inj hd
      exact bne_self_eq_false c
  obtain ⟨before, inner, after, hbefore, hafter, htext, -⟩ := hv.exists_object
  obtain ⟨before', inner', after', hbefore', hafter', htext', -⟩ := hinput.exists_object
  rw [String.toList_append, String.toList_append, htext] at htext'
  have hnone {blank : List Char} (hblank : JsonText.Blank blank) : '{' ∉ blank ∧ '}' ∉ blank :=
    ⟨fun hmem => absurd (hblank _ hmem) (by decide), fun hmem => absurd (hblank _ hmem) (by decide)⟩
  have hstart : p.toList ++ before = before' := by
    refine @hfront '{' _ _ (inner ++ '}' :: (after ++ q.toList)) (inner' ++ '}' :: after') ?_
      (hnone hbefore').1 (by rw [← htext']; simp)
    rw [List.mem_append, not_or]
    exact ⟨hp, (hnone hbefore).1⟩
  have hstop : (after ++ q.toList).reverse = after'.reverse := by
    refine @hfront '}' _ _ (p.toList ++ (before ++ '{' :: inner)).reverse
      (before' ++ '{' :: inner').reverse ?_ ?_ ?_
    · rw [List.mem_reverse, List.mem_append, not_or]
      exact ⟨(hnone hafter).2, hq⟩
    · rw [List.mem_reverse]
      exact (hnone hafter').2
    · have hreverse := congrArg List.reverse htext'
      simpa using hreverse
  rw [List.reverse_inj] at hstop
  constructor
  · exact fun c hc => hbefore' c (hstart ▸ List.mem_append_left _ hc)
  · exact fun c hc => hafter' c (hstop ▸ List.mem_append_right _ hc)

section Serde

variable (hserde : ∀ text value,
  fromStr text = .ok value ↔ Says number false depth text.toList value)

include hserde

/-- Without a backslash and the patterns, the cleaned text has the value of the object. -/
theorem parseCleaned_of_not_rewritten
    (hcore : Says number false depth ('{' :: (inner ++ ['}'])) (.object entries))
    (hobject : extractJsonObject input = some (String.ofList ('{' :: (inner ++ ['}']))))
    (hkept : ¬ Rewritten ('{' :: (inner ++ ['}']))) :
    ∃ text, parseCleaned fromStr (cleanJsonObject input) = .ok (text, .object entries) := by
  have hnormalized := normalizeJson_of_not_rewritten hkept
  have hshape : ('{' :: (inner ++ ['}'])).flatMap spaced =
      '{' :: (inner.flatMap spaced ++ ['}']) := by
    rw [List.flatMap_cons, List.flatMap_append]
    rfl
  have hclean := @cleanJsonObject_eq (inner.flatMap spaced) input _ hobject
    (by rw [String.toList_ofList, hnormalized, hshape])
  have hsaid := hcore.respace spaced_respaces fun hmem => hkept (.inl hmem)
  have hread : fromStr (cleanJsonObject input) = .ok (.object entries) := by
    rw [hserde, hclean, String.toList_ofList, ← hshape]
    exact hsaid
  exact ⟨_, by rw [parseCleaned, hread]; rfl⟩

/-- Where no name is repeated, the cleaned text has another value when something is replaced. -/
theorem not_rewritten_of_parseCleaned {text : String}
    (hcore : Says number true depth' ('{' :: (inner ++ ['}'])) (.object entries))
    (hobject : extractJsonObject input = some (String.ofList ('{' :: (inner ++ ['}']))))
    (hresult : parseCleaned fromStr (cleanJsonObject input) = .ok (text, .object entries)) :
    ¬ Rewritten ('{' :: (inner ++ ['}'])) := by
  have hread : fromStr (cleanJsonObject input) = .ok (.object entries) := by
    rw [parseCleaned] at hresult
    split at hresult
    · exact nomatch hresult
    · next value hvalue =>
      split at hresult
      · rw [hvalue]
        exact congrArg Except.ok (Prod.mk.inj (Except.ok.inj hresult)).2
      · exact nomatch hresult
  have hcleaned := (hserde _ _).mp hread
  have hsublist := cleanJsonObject_sublist hobject
  rw [String.toList_ofList] at hsublist
  have hslash : '\\' ∉ (cleanJsonObject input).toList := by
    intro hmem
    have hnormalized := hsublist.subset hmem
    rw [normalizeJson_eq] at hnormalized
    exact not_mem_spaced _ hnormalized
  obtain ⟨hopen, hclose, hbracket, hquote⟩ := not_pattern_of_count fun c hc =>
    (hcore.count_le hcleaned hslash hc).trans (hsublist.count_le c)
  -- only white space and backslashes have been replaced
  have hnormalized : normalizeJson ('{' :: (inner ++ ['}'])) =
      '{' :: (inner.flatMap spaced ++ ['}']) := by
    rw [normalizeJson_eq, replace_eq_self (by decide) _ hopen, replace_eq_self (by decide) _ hclose,
      replace_eq_self (by decide) _ hbracket, replace_eq_self (by decide) _ hquote,
      List.flatMap_cons, List.flatMap_append]
    rfl
  have hshape : (cleanJsonObject input).toList = ('{' :: (inner ++ ['}'])).flatMap spaced := by
    rw [cleanJsonObject_eq hobject (by rw [String.toList_ofList, hnormalized]),
      String.toList_ofList, List.flatMap_cons, List.flatMap_append]
    rfl
  rw [hshape] at hcleaned hslash
  have hnone := hcore.not_mem_of_respace spaced_respaces rfl hcleaned hslash
  rintro (hmem | hmem | hmem | hmem | hmem)
  · exact hnone hmem
  · exact hopen hmem
  · exact hclose hmem
  · exact hbracket hmem
  · exact hquote hmem

/-- An object with other text around it is not read as it is. -/
theorem tryParseJsonObject_eq (hp : '{' ∉ p.toList) (hq : '}' ∉ q.toList)
    (hv : Says number false depth v.toList (.object entries))
    (hblank : ¬ (JsonText.Blank p.toList ∧ JsonText.Blank q.toList)) :
    tryParseJsonObject fromStr (p ++ v ++ q) =
      parseCleaned fromStr (cleanJsonObject (p ++ v ++ q)) := by
  rw [tryParseJsonObject]
  split
  · next value hvalue =>
    cases value with
    | object entries' => exact absurd (blank_of_read hp hq hv ((hserde _ _).mp hvalue)) hblank
    | null => rfl
    | bool => rfl
    | number => rfl
    | string => rfl
    | array => rfl
  · rfl

/-- **When an object survives the cleanup.**  With text around it that holds no braces, its value is
returned when there is only white space around it, or when its text holds no backslash and none of
the patterns that are replaced; for a text that repeats no name this is the only way. -/
theorem tryParseJsonObject_keeps_iff (hp : '{' ∉ p.toList ∧ '}' ∉ p.toList)
    (hq : '{' ∉ q.toList ∧ '}' ∉ q.toList) (hv : fromStr v = .ok (.object entries)) :
    ((JsonText.Blank p.toList ∧ JsonText.Blank q.toList) ∨ ¬ Rewritten v.toList →
      ∃ text, tryParseJsonObject fromStr (p ++ v ++ q) = .ok (text, .object entries)) ∧
    ((∃ value, Says number true depth v.toList value) →
      ((∃ text, tryParseJsonObject fromStr (p ++ v ++ q) = .ok (text, .object entries)) ↔
        (JsonText.Blank p.toList ∧ JsonText.Blank q.toList) ∨ ¬ Rewritten v.toList)) := by
  have hsaid := (hserde _ _).mp hv
  obtain ⟨before, inner, after, hbefore, hafter, htext, hcore, hobject⟩ :=
    exists_core hp.1 hq.2 hsaid
  have hrewritten : Rewritten v.toList ↔ Rewritten ('{' :: (inner ++ ['}'])) := by
    rw [htext]
    exact rewritten_pad_iff hbefore hafter
  have hkeeps : (JsonText.Blank p.toList ∧ JsonText.Blank q.toList) ∨ ¬ Rewritten v.toList →
      ∃ text, tryParseJsonObject fromStr (p ++ v ++ q) = .ok (text, .object entries) := by
    intro hcases
    by_cases hblank : JsonText.Blank p.toList ∧ JsonText.Blank q.toList
    · have hwhole : fromStr (p ++ v ++ q) = .ok (.object entries) := by
        rw [hserde, String.toList_append, String.toList_append, List.append_assoc]
        exact hsaid.pad hblank.1 hblank.2
      exact ⟨_, by rw [tryParseJsonObject, hwhole]; rfl⟩
    · rw [tryParseJsonObject_eq hserde hp.1 hq.2 hsaid hblank]
      exact parseCleaned_of_not_rewritten hserde hcore hobject
        fun h => hcases.resolve_left hblank (hrewritten.mpr h)
  refine ⟨hkeeps, fun ⟨value, hunique⟩ => ⟨?_, hkeeps⟩⟩
  rintro ⟨text, hresult⟩
  by_cases hblank : JsonText.Blank p.toList ∧ JsonText.Blank q.toList
  · exact .inl hblank
  · rw [tryParseJsonObject_eq hserde hp.1 hq.2 hsaid hblank] at hresult
    obtain rfl := hunique.value_eq hsaid
    obtain ⟨before', inner', after', -, -, -, hcore', hobject'⟩ := exists_core hp.1 hq.2 hunique
    have hsame := String.ofList_injective (Option.some.inj (hobject'.symm.trans hobject))
    rw [hsame] at hcore'
    exact .inr fun h =>
      not_rewritten_of_parseCleaned hserde hcore' hobject hresult (hrewritten.mp h)

end Serde

/-- The texts of unsigned integers. -/
def unsignedNumber (text : List Char) : Option Number :=
  if text.all Char.isDigit then
    some (.unsigned (UInt64.ofNat (text.foldl (fun n c => 10 * n + (c.toNat - '0'.toNat)) 0)))
  else none

/-- The members of an object with one number. -/
theorem denotes_one (unique : Bool) (depth : ℕ) (c : Char) (hle : 32 ≤ c.toNat)
    (hquote : c ≠ '"') (hslash : c ≠ '\\') :
    Denotes unsignedNumber unique (depth + 1)
      [.mark '{', .string [c], .mark ':', .word ['1'], .mark '}']
      (.value (.object [(String.ofList [c], .number (.unsigned 1))])) := by
  have hnumber : JsonText.NumberText ['1'] := by
    have hdigits : JsonText.Digits ['1'] := ⟨by simp, List.all_eq_true.mp (by decide)⟩
    exact ⟨[], ['1'], [], [], by simp, ⟨hdigits, by simp⟩, .inl rfl, .inl rfl, rfl⟩
  have hword : Denotes unsignedNumber unique depth [.word ['1']]
      (.value (.number (.unsigned 1))) := .word (.inr hnumber) rfl
  exact .object (.member (.plain hle hquote hslash .nil) hword) fun _ => by simp

theorem says_note (unique : Bool) : Says unsignedNumber unique 127 "\x7b\"a\":1\x7d".toList
    (.object [("a", .number (.unsigned 1))]) := by
  refine ⟨_, ?_, denotes_one unique 126 'a' (by decide) (by decide) (by decide)⟩
  have hone : Lexes ['1', '}'] [.word ['1'], .mark '}'] :=
    @Lexes.word '1' [] ['}'] _ (by decide) (by simp) (.mark (by decide) .nil)
      (by simp [Token.isWord])
  exact .mark (by decide)
    (@Lexes.string ['a'] _ _ (.plain (by decide) (by decide) .nil) (.mark (by decide) hone))

theorem tryParseJsonObject_keeps_note :
    ∃ text, tryParseJsonObject (reader unsignedNumber 127)
        ("Answer: " ++ "\x7b\"a\":1\x7d" ++ " (end)") =
      .ok (text, .object [("a", .number (.unsigned 1))]) := by
  refine (tryParseJsonObject_keeps_iff (fun text value => reader_eq_ok_iff) (by decide) (by decide)
    (reader_eq_ok_iff.mpr (says_note false))).1 (.inr ?_)
  unfold Rewritten
  decide

theorem says_nested (unique : Bool) : Says unsignedNumber unique 127
    "\x7b\"a\":\x7b\"b\":1\x7d\x7d".toList (.object [("a", .object [("b", .number (.unsigned 1))])]) := by
  have hinner := denotes_one unique 125 'b' (by decide) (by decide) (by decide)
  refine ⟨_, ?_, .object (.member (.plain (by decide) (by decide) (by decide) .nil) hinner)
    fun _ => by simp⟩
  have hone : Lexes ['1', '}', '}'] [.word ['1'], .mark '}', .mark '}'] :=
    @Lexes.word '1' [] ['}', '}'] _ (by decide) (by simp)
      (.mark (by decide) (.mark (by decide) .nil)) (by simp [Token.isWord])
  exact .mark (by decide)
    (@Lexes.string ['a'] _ _ (.plain (by decide) (by decide) .nil) (.mark (by decide)
      (.mark (by decide) (@Lexes.string ['b'] _ _ (.plain (by decide) (by decide) .nil)
        (.mark (by decide) hone)))))

/-- A nested object loses one of its last two braces. -/
theorem tryParseJsonObject_nested :
    reader unsignedNumber 127 "\x7b\"a\":\x7b\"b\":1\x7d\x7d" =
      .ok (.object [("a", .object [("b", .number (.unsigned 1))])]) ∧
    ¬ ∃ text, tryParseJsonObject (reader unsignedNumber 127)
        ("Answer: " ++ "\x7b\"a\":\x7b\"b\":1\x7d\x7d" ++ "") =
      .ok (text, .object [("a", .object [("b", .number (.unsigned 1))])]) := by
  have hserde (text : String) (value : Value) : reader unsignedNumber 127 text = .ok value ↔
      Says unsignedNumber false 127 text.toList value := reader_eq_ok_iff
  refine ⟨(hserde _ _).mpr (says_nested false), ?_⟩
  rintro ⟨text, hresult⟩
  have hblank : ¬ (JsonText.Blank "Answer: ".toList ∧ JsonText.Blank "".toList) :=
    fun h => absurd (h.1 'A' (by decide)) (by decide)
  rw [tryParseJsonObject_eq hserde (by decide) (by decide) (says_nested false) hblank] at hresult
  have hcore : Says unsignedNumber true 127
      ('{' :: (['"', 'a', '"', ':', '{', '"', 'b', '"', ':', '1', '}'] ++ ['}'])) _ :=
    says_nested true
  exact not_rewritten_of_parseCleaned hserde hcore (by decide) hresult
    (.inr (.inr (.inl (by decide))))

end GraphLoom.Llm
