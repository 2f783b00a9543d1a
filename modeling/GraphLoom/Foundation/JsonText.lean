import GraphLoom.Foundation.Literals

/-!
# JSON texts

The grammar of JSON, and that of texts that are like JSON: there a key may stand without quotes, a
comma may stand behind the last entry, and a string may hold any character and any escape.  The
braces of such texts are balanced outside of their strings (`ObjectText.group`).
-/

namespace GraphLoom.Foundation.JsonText

def isBlank (c : Char) : Bool := c == ' ' || c == '\t' || c == '\n' || c == '\r'

def Blank (text : List Char) : Prop := ∀ c ∈ text, isBlank c = true

def isHexDigit (c : Char) : Bool := c.isDigit || ('a' ≤ c && c ≤ 'f') || ('A' ≤ c && c ≤ 'F')

inductive StringBody : List Char → Prop
  | nil : StringBody []
  | unescaped {c : Char} {body : List Char} : 32 ≤ c.toNat → c ≠ '"' → c ≠ '\\' → StringBody body →
      StringBody (c :: body)
  | escaped {c : Char} {body : List Char} : c ∈ ['"', '\\', '/', 'b', 'f', 'n', 'r', 't'] →
      StringBody body → StringBody ('\\' :: c :: body)
  | unicode {a b c d : Char} {body : List Char} : isHexDigit a = true → isHexDigit b = true →
      isHexDigit c = true → isHexDigit d = true → StringBody body →
      StringBody ('\\' :: 'u' :: a :: b :: c :: d :: body)

/-! ### Numbers -/

def Digits (text : List Char) : Prop := text ≠ [] ∧ ∀ c ∈ text, c.isDigit = true

/-- No zero stands before another digit. -/
def IntText (text : List Char) : Prop := Digits text ∧ (text.head? = some '0' → text = ['0'])

def FracText (text : List Char) : Prop := text = [] ∨ ∃ digits, Digits digits ∧ text = '.' :: digits

def ExpText (text : List Char) : Prop :=
  text = [] ∨ ∃ e sign digits, e ∈ ['e', 'E'] ∧ sign ∈ [[], ['+'], ['-']] ∧ Digits digits ∧
    text = e :: (sign ++ digits)

def NumberText (text : List Char) : Prop :=
  ∃ sign int frac exp, sign ∈ [[], ['-']] ∧ IntText int ∧ FracText frac ∧ ExpText exp ∧
    text = sign ++ (int ++ (frac ++ exp))

/-! ### Values -/

def isIdentifierStart (c : Char) : Bool := c.isAlpha || c == '_'

def isIdentifierPart (c : Char) : Bool := c.isAlphanum || c == '_'

variable {lenient : Bool}

def StringText (lenient : Bool) (text : List Char) : Prop :=
  ∃ body, (StringBody body ∨ lenient = true ∧ LiteralBody body) ∧ text = literal body

/-- An identifier without quotes is a key of a text that is like JSON. -/
def BareKey (text : List Char) : Prop :=
  ∃ c rest, isIdentifierStart c = true ∧ (∀ d ∈ rest, isIdentifierPart d = true) ∧ text = c :: rest

def KeyText (lenient : Bool) (text : List Char) : Prop :=
  StringText lenient text ∨ lenient = true ∧ BareKey text

/-- The names of the constants. -/
def constants : List (List Char) :=
  [['t', 'r', 'u', 'e'], ['f', 'a', 'l', 's', 'e'], ['n', 'u', 'l', 'l']]

inductive Container where
  | array
  | object

def Container.enclose : Container → List Char → List Char
  | .array, text => '[' :: (text ++ [']'])
  | .object, text => '{' :: (text ++ ['}'])

inductive Kind where
  | value
  | item (container : Container)
  | items (container : Container)

/-- The texts of values, and of one or more items of an array or of an object. -/
inductive Derives (lenient : Bool) : Kind → List Char → Prop
  | constant {text : List Char} : text ∈ constants → Derives lenient .value text
  | number {text : List Char} : NumberText text → Derives lenient .value text
  | string {text : List Char} : StringText lenient text → Derives lenient .value text
  | empty (container : Container) {blank : List Char} : Blank blank →
      Derives lenient .value (container.enclose blank)
  | container {container : Container} {items : List Char} :
      Derives lenient (.items container) items →
      Derives lenient .value (container.enclose items)
  | element {before value after : List Char} : Blank before → Derives lenient .value value →
      Blank after → Derives lenient (.item .array) (before ++ (value ++ after))
  | member {before key between gap value after : List Char} : Blank before → KeyText lenient key →
      Blank between → Blank gap → Derives lenient .value value → Blank after →
      Derives lenient (.item .object)
        (before ++ (key ++ (between ++ ':' :: (gap ++ (value ++ after)))))
  | last {container : Container} {item : List Char} : Derives lenient (.item container) item →
      Derives lenient (.items container) item
  | more {container : Container} {item items : List Char} : Derives lenient (.item container) item →
      Derives lenient (.items container) items →
      Derives lenient (.items container) (item ++ ',' :: items)
  -- a comma behind the last item
  | trailing {container : Container} {item blank : List Char} : lenient = true →
      Derives lenient (.item container) item → Blank blank →
      Derives lenient (.items container) (item ++ ',' :: blank)

/-- The text of an object. -/
def ObjectText (lenient : Bool) (text : List Char) : Prop :=
  ∃ inner, (Blank inner ∨ Derives lenient (.items .object) inner) ∧
    text = Container.enclose .object inner

/-! ### Characters -/

variable {text : List Char} {c : Char}

theorem isBlank_iff : isBlank c = true ↔ c = ' ' ∨ c = '\t' ∨ c = '\n' ∨ c = '\r' := by
  simp [isBlank, or_assoc]

/-- The characters of a number. -/
theorem NumberText.mem (h : NumberText text) (hc : c ∈ text) :
    c.isDigit = true ∨ c ∈ ['+', '-', '.', 'e', 'E'] := by
  obtain ⟨sign, int, frac, exp, hsign, hint, hfrac, hexp, rfl⟩ := h
  simp only [List.mem_append] at hc
  rcases hc with hc | hc | hc | hc
  · simp only [List.mem_cons, List.not_mem_nil, or_false] at hsign
    rcases hsign with rfl | rfl
    · exact absurd hc (List.not_mem_nil)
    · exact .inr (by simp_all)
  · exact .inl (hint.1.2 c hc)
  · rcases hfrac with rfl | ⟨digits, hdigits, rfl⟩
    · exact absurd hc (List.not_mem_nil)
    · rcases List.mem_cons.mp hc with rfl | hc
      · exact .inr (by simp)
      · exact .inl (hdigits.2 c hc)
  · rcases hexp with rfl | ⟨e, sign, digits, he, hsign, hdigits, rfl⟩
    · exact absurd hc (List.not_mem_nil)
    · simp only [List.mem_cons, List.mem_append, List.not_mem_nil, or_false] at hc he hsign
      rcases hc with rfl | hc | hc
      · exact .inr (by rcases he with rfl | rfl <;> simp)
      · exact .inr (by rcases hsign with rfl | rfl | rfl <;> simp_all)
      · exact .inl (hdigits.2 c hc)

theorem NumberText.ne_nil (h : NumberText text) : text ≠ [] := by
  obtain ⟨sign, int, frac, exp, -, hint, -, -, rfl⟩ := h
  simp [hint.1.1]

/-- The body of a string is that of a literal. -/
theorem StringBody.literalBody (h : StringBody text) : LiteralBody text := by
  induction h with
  | nil => exact .nil
  | unescaped _ hquote hslash _ ih => exact .plain hquote hslash ih
  | escaped _ _ ih => exact .escape ih
  | unicode ha hb hc hd _ ih =>
    have hplain : ∀ d : Char, isHexDigit d = true → d ≠ '"' ∧ d ≠ '\\' := by
      intro d hdigit
      constructor <;> rintro rfl <;> exact absurd hdigit (by decide)
    apply LiteralBody.escape
    exact .plain (hplain _ ha).1 (hplain _ ha).2 (.plain (hplain _ hb).1 (hplain _ hb).2
      (.plain (hplain _ hc).1 (hplain _ hc).2 (.plain (hplain _ hd).1 (hplain _ hd).2 ih)))

theorem StringText.exists_literal (h : StringText lenient text) :
    ∃ body, LiteralBody body ∧ text = literal body := by
  obtain ⟨body, hbody, rfl⟩ := h
  rcases hbody with hbody | ⟨-, hbody⟩
  · exact ⟨body, hbody.literalBody, rfl⟩
  · exact ⟨body, hbody, rfl⟩

/-- The letters and digits lie between the codes of `0` and `z`. -/
theorem isAlphanum_range (h : c.isAlphanum = true) : 48 ≤ c.toNat ∧ c.toNat ≤ 122 := by
  have hclasses : (decide (c.val ≥ 'A'.val ∧ c.val ≤ 'Z'.val) ||
      (decide (c.val ≥ 'a'.val) && decide (c.val ≤ 'z'.val)) ||
      (decide (c.val ≥ '0'.val) && decide (c.val ≤ '9'.val))) = true := h
  have hval : c.val.toNat = c.toNat := rfl
  simp [UInt32.le_iff_toNat_le] at hclasses
  omega

theorem constants_isAlpha (h : text ∈ constants) (hc : c ∈ text) : c.isAlpha = true := by
  have hall : constants.all (fun text => text.all Char.isAlpha) = true := by decide
  exact List.all_eq_true.mp (List.all_eq_true.mp hall text h) c hc

/-- The characters of names and numbers. -/
def isScalarChar (c : Char) : Bool := c.isAlphanum || c == '+' || c == '-' || c == '.'

theorem ne_of_isScalarChar {d : Char} (h : ∀ c ∈ text, isScalarChar c = true)
    (hd : isScalarChar d = false) : ∀ c ∈ text, c ≠ d := by
  rintro c hc rfl
  exact Bool.false_ne_true (hd.symm.trans (h c hc))

theorem constants_isScalarChar (h : text ∈ constants) (hc : c ∈ text) : isScalarChar c = true := by
  simp [isScalarChar, Char.isAlphanum, constants_isAlpha h hc]

theorem NumberText.isScalarChar (h : NumberText text) (hc : c ∈ text) : isScalarChar c = true := by
  rcases h.mem hc with hdigit | hsymbol
  · simp [JsonText.isScalarChar, Char.isAlphanum, hdigit]
  · simp only [List.mem_cons, List.not_mem_nil, or_false] at hsymbol
    rcases hsymbol with rfl | rfl | rfl | rfl | rfl <;> decide

theorem constants_ne_nil (h : text ∈ constants) : text ≠ [] := by
  rintro rfl
  exact absurd h (by decide)

theorem BareKey.isIdentifierPart (h : BareKey text) (hc : c ∈ text) :
    isIdentifierPart c = true := by
  obtain ⟨first, rest, hfirst, hrest, rfl⟩ := h
  rcases List.mem_cons.mp hc with rfl | hc
  · simp only [isIdentifierStart, Bool.or_eq_true] at hfirst
    simp only [JsonText.isIdentifierPart, Char.isAlphanum, Bool.or_eq_true]
    rcases hfirst with hfirst | hfirst
    · exact .inl (.inl hfirst)
    · exact .inr hfirst
  · exact hrest c hc

/-! ### Braces -/

theorem Blank.braced (h : Blank text) : Braced text := by
  apply Braced.of_plain
  intro c hc
  rcases isBlank_iff.mp (h c hc) with rfl | rfl | rfl | rfl <;> decide

theorem NumberText.braced (h : NumberText text) : Braced text := by
  apply Braced.of_plain
  intro c hc
  rcases h.mem hc with hdigit | hsymbol
  · refine ⟨?_, ?_, ?_⟩ <;> rintro rfl <;> exact absurd hdigit (by decide)
  · refine ⟨?_, ?_, ?_⟩ <;> rintro rfl <;> exact absurd hsymbol (by decide)

theorem KeyText.braced (h : KeyText lenient text) : Braced text := by
  rcases h with hstring | ⟨-, hbare⟩
  · obtain ⟨body, hbody, rfl⟩ := hstring.exists_literal
    exact .of_literal hbody
  · apply Braced.of_plain
    intro c hc
    have hpart := hbare.isIdentifierPart hc
    refine ⟨?_, ?_, ?_⟩ <;> rintro rfl <;> exact absurd hpart (by decide)

theorem Container.enclose_braced (container : Container) (h : Braced text) :
    Braced (container.enclose text) := by
  cases container with
  | array =>
    apply Braced.plain (by decide) (by decide) (by decide)
    exact h.append (.plain (by decide) (by decide) (by decide) .nil)
  | object => exact .group h .nil

/-- The braces of a JSON text are balanced. -/
theorem Derives.braced {kind : Kind} (h : Derives lenient kind text) : Braced text := by
  induction h with
  | constant hname =>
    apply Braced.of_plain
    intro c hc
    have halpha := constants_isAlpha hname hc
    refine ⟨?_, ?_, ?_⟩ <;> rintro rfl <;> exact absurd halpha (by decide)
  | number hnumber => exact hnumber.braced
  | string hstring =>
    obtain ⟨body, hbody, rfl⟩ := hstring.exists_literal
    exact .of_literal hbody
  | empty container hblank => exact container.enclose_braced hblank.braced
  | @container container _ _ ih => exact container.enclose_braced ih
  | element hbefore _ hafter ih => exact hbefore.braced.append (ih.append hafter.braced)
  | member hbefore hkey hbetween hgap _ hafter ih =>
    apply hbefore.braced.append
    apply hkey.braced.append
    apply hbetween.braced.append
    apply Braced.plain (by decide) (by decide) (by decide)
    exact hgap.braced.append (ih.append hafter.braced)
  | last _ ih => exact ih
  | more _ _ ihItem ihItems =>
    exact ihItem.append (.plain (by decide) (by decide) (by decide) ihItems)
  | trailing _ _ hblank ih =>
    exact ih.append (.plain (by decide) (by decide) (by decide) hblank.braced)

/-- The text of an object is a group. -/
theorem ObjectText.group (h : ObjectText lenient text) : Group text := by
  obtain ⟨inner, hinner, rfl⟩ := h
  rcases hinner with hblank | hitems
  · exact ⟨inner, hblank.braced, rfl⟩
  · exact ⟨inner, hitems.braced, rfl⟩

end GraphLoom.Foundation.JsonText
