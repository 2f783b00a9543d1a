import GraphLoom.Foundation.Json
import GraphLoom.Foundation.JsonTokens
import Mathlib.Algebra.Order.BigOperators.Group.List
import Mathlib.Algebra.Order.Group.Nat
import Mathlib.Algebra.GroupWithZero.Nat

/-!
# What JSON texts say

`Says number unique depth text value`: the text is JSON and says the value.  Of the members of an
object that share a name the last one counts; `unique` asks for texts without such members.  The
containers are nested to a depth of at most `depth`, and `number` reads the text of a number.

A text says one value (`Says.value_eq`).  What a value weighs, object by object and string by
string, is at most what the tokens of its text weigh (`Denotes.weigh_le`), and it is at least as
much when no name is repeated (`Denotes.le_weigh`).
-/

namespace GraphLoom.Foundation.JsonText

open Json

/-! ### Strings -/

def hexValue (c : Char) : ℕ :=
  if c.isDigit then c.toNat - '0'.toNat else c.toLower.toNat - 'a'.toNat + 10

/-- The number that hexadecimal digits are. -/
def codeUnit (digits : List Char) : ℕ := digits.foldl (fun n c => 16 * n + hexValue c) 0

def HexDigits (digits : List Char) : Prop := digits.length = 4 ∧ ∀ c ∈ digits, isHexDigit c = true

/-- The escapes of one character. -/
def unescape (c : Char) : Option Char :=
  match c with
  | '"' => some '"'
  | '\\' => some '\\'
  | '/' => some '/'
  | 'b' => some '\x08'
  | 'f' => some '\x0c'
  | 'n' => some '\n'
  | 'r' => some '\r'
  | 't' => some '\t'
  | _ => none

/-- The text that the body of a string says. -/
inductive StringSays : List Char → List Char → Prop
  | nil : StringSays [] []
  | plain {c : Char} {body text : List Char} : 32 ≤ c.toNat → c ≠ '"' → c ≠ '\\' →
      StringSays body text → StringSays (c :: body) (c :: text)
  | short {c d : Char} {body text : List Char} : unescape c = some d → StringSays body text →
      StringSays ('\\' :: c :: body) (d :: text)
  | unicode {digits body text : List Char} : HexDigits digits → (codeUnit digits).isValidChar →
      StringSays body text →
      StringSays ('\\' :: 'u' :: (digits ++ body)) (Char.ofNat (codeUnit digits) :: text)
  | surrogates {high low body text : List Char} : HexDigits high → HexDigits low →
      0xD800 ≤ codeUnit high ∧ codeUnit high < 0xDC00 →
      0xDC00 ≤ codeUnit low ∧ codeUnit low < 0xE000 → StringSays body text →
      StringSays ('\\' :: 'u' :: (high ++ '\\' :: 'u' :: (low ++ body)))
        (Char.ofNat (0x10000 + (codeUnit high - 0xD800) * 0x400 + (codeUnit low - 0xDC00)) :: text)

variable {body text text' digits digits' back back' : List Char} {c : Char}

theorem HexDigits.append_inj (h : HexDigits digits) (h' : HexDigits digits')
    (heq : digits ++ back = digits' ++ back') : digits = digits' ∧ back = back' :=
  List.append_inj heq (h.1.trans h'.1.symm)

theorem HexDigits.count_eq_zero (h : HexDigits digits) (hc : isHexDigit c = false) :
    digits.count c = 0 := by
  apply List.count_eq_zero_of_not_mem
  intro hmem
  rw [h.2 c hmem] at hc
  exact nomatch hc

theorem unescape_u : unescape 'u' = none := rfl

/-- A body says one text. -/
theorem StringSays.unique (h : StringSays body text) (h' : StringSays body text') :
    text = text' := by
  induction h generalizing text' with
  | nil => cases h'; rfl
  | plain _ _ hslash _ ih =>
    cases h' with
    | plain _ _ _ h' => rw [ih h']
    | short _ _ => exact absurd rfl hslash
    | unicode _ _ _ => exact absurd rfl hslash
    | surrogates _ _ _ _ _ => exact absurd rfl hslash
  | short hshort _ ih =>
    cases h' with
    | plain _ _ hslash _ => exact absurd rfl hslash
    | short hshort' h' => rw [ih h', Option.some.inj (hshort.symm.trans hshort')]
    | unicode _ _ _ => rw [unescape_u] at hshort; exact nomatch hshort
    | surrogates _ _ _ _ _ => rw [unescape_u] at hshort; exact nomatch hshort
  | @unicode digits body text hdigits hvalid _ ih =>
    generalize hwhole : '\\' :: 'u' :: (digits ++ body) = whole at h'
    cases h' with
    | nil => exact nomatch hwhole
    | plain _ _ hslash _ => exact absurd (List.cons.inj hwhole).1.symm hslash
    | short hshort _ =>
      rw [← (List.cons.inj (List.cons.inj hwhole).2).1, unescape_u] at hshort
      exact nomatch hshort
    | unicode hdigits' _ h' =>
      obtain ⟨rfl, rfl⟩ := hdigits.append_inj hdigits' (List.cons.inj (List.cons.inj hwhole).2).2
      rw [ih h']
    | surrogates hhigh _ hrange _ _ =>
      obtain ⟨rfl, -⟩ := hdigits.append_inj hhigh (List.cons.inj (List.cons.inj hwhole).2).2
      unfold Nat.isValidChar at hvalid
      omega
  | @surrogates high low body text hhigh hlow hrange _ _ ih =>
    generalize hwhole : '\\' :: 'u' :: (high ++ '\\' :: 'u' :: (low ++ body)) = whole at h'
    cases h' with
    | nil => exact nomatch hwhole
    | plain _ _ hslash _ => exact absurd (List.cons.inj hwhole).1.symm hslash
    | short hshort _ =>
      rw [← (List.cons.inj (List.cons.inj hwhole).2).1, unescape_u] at hshort
      exact nomatch hshort
    | unicode hdigits hvalid _ =>
      obtain ⟨rfl, -⟩ := hhigh.append_inj hdigits (List.cons.inj (List.cons.inj hwhole).2).2
      unfold Nat.isValidChar at hvalid
      omega
    | surrogates hhigh' hlow' _ _ h' =>
      obtain ⟨rfl, htail⟩ :=
        hhigh.append_inj hhigh' (List.cons.inj (List.cons.inj hwhole).2).2
      obtain ⟨rfl, rfl⟩ := hlow.append_inj hlow' (List.cons.inj (List.cons.inj htail).2).2
      rw [ih h']

theorem isHexDigit_plain (h : isHexDigit c = true) : 32 ≤ c.toNat ∧ c ≠ '"' ∧ c ≠ '\\' := by
  refine ⟨?_, ?_, ?_⟩
  · simp only [isHexDigit, Char.isDigit, Bool.or_eq_true, Bool.and_eq_true, decide_eq_true_eq,
      Char.le_def, UInt32.le_iff_toNat_le, ge_iff_le] at h
    have hzero : '0'.val.toNat = 48 := rfl
    have ha : 'a'.val.toNat = 97 := rfl
    have hA : 'A'.val.toNat = 65 := rfl
    show 32 ≤ c.val.toNat
    omega
  · rintro rfl
    exact absurd h (by decide)
  · rintro rfl
    exact absurd h (by decide)

section

variable (h : StringSays body text)
include h

/-- The characters of a body. -/
theorem StringSays.le_toNat : ∀ c ∈ body, 32 ≤ c.toNat := by
  have hdigit {digits : List Char} (hdigits : HexDigits digits) : ∀ c ∈ digits, 32 ≤ c.toNat :=
    fun c hc => (isHexDigit_plain (hdigits.2 c hc)).1
  induction h with
  | nil => exact fun _ hc => nomatch hc
  | plain hle _ _ _ ih => exact List.forall_mem_cons.mpr ⟨hle, ih⟩
  | @short c d _ _ hshort _ ih =>
    have hle : 32 ≤ c.toNat := by
      unfold unescape at hshort
      split at hshort <;> first | decide | exact nomatch hshort
    exact List.forall_mem_cons.mpr ⟨by decide, List.forall_mem_cons.mpr ⟨hle, ih⟩⟩
  | unicode hdigits _ _ ih =>
    simp only [List.forall_mem_cons, List.forall_mem_append]
    exact ⟨by decide, by decide, hdigit hdigits, ih⟩
  | surrogates hhigh hlow _ _ _ ih =>
    simp only [List.forall_mem_cons, List.forall_mem_append]
    exact ⟨by decide, by decide, hdigit hhigh, by decide, by decide, hdigit hlow, ih⟩

/-- A brace or a quote of the body is one of the text. -/
theorem StringSays.count_le (hc : c = '{' ∨ c = '}' ∨ c = '"') : body.count c ≤ text.count c := by
  have hslash : '\\' ≠ c := by rcases hc with rfl | rfl | rfl <;> decide
  have hu : 'u' ≠ c := by rcases hc with rfl | rfl | rfl <;> decide
  have hhex : isHexDigit c = false := by rcases hc with rfl | rfl | rfl <;> decide
  induction h with
  | nil => exact le_rfl
  | @plain d _ _ _ _ _ _ ih =>
    rw [List.count_cons, List.count_cons]
    omega
  | @short e d body text hshort _ ih =>
    have hquote : e = c → d = c := by
      rintro rfl
      rcases hc with rfl | rfl | rfl
      · exact nomatch hshort
      · exact nomatch hshort
      · exact (Option.some.inj hshort).symm
    rw [List.count_cons_of_ne hslash, List.count_cons, List.count_cons]
    split
    · next heq =>
      rw [hquote (by simpa using heq)]
      simpa using ih
    · omega
  | unicode hdigits _ _ ih =>
    rw [List.count_cons_of_ne hslash, List.count_cons_of_ne hu, List.count_append,
      hdigits.count_eq_zero hhex, Nat.zero_add]
    exact ih.trans (List.count_le_count_cons ..)
  | surrogates hhigh hlow _ _ _ ih =>
    rw [List.count_cons_of_ne hslash, List.count_cons_of_ne hu, List.count_append,
      hhigh.count_eq_zero hhex, List.count_cons_of_ne hslash, List.count_cons_of_ne hu,
      List.count_append, hlow.count_eq_zero hhex, Nat.zero_add, Nat.zero_add]
    exact ih.trans (List.count_le_count_cons ..)

/-- A body with an escape is longer than its text. -/
theorem StringSays.length_le :
    text.length ≤ body.length ∧ ('\\' ∈ body → text.length < body.length) := by
  induction h with
  | nil => exact ⟨le_rfl, fun hmem => nomatch hmem⟩
  | plain _ _ hslash _ ih =>
    simp only [List.length_cons, List.mem_cons, hslash.symm, false_or]
    exact ⟨by omega, fun hmem => by have := ih.2 hmem; omega⟩
  | short _ _ ih =>
    simp only [List.length_cons]
    omega
  | unicode _ _ _ ih =>
    simp only [List.length_cons, List.length_append]
    omega
  | surrogates _ _ _ _ _ ih =>
    simp only [List.length_cons, List.length_append]
    omega

/-- A body without an escape is its text. -/
theorem StringSays.eq_of_not_mem (hslash : '\\' ∉ body) : text = body := by
  induction h with
  | nil => rfl
  | plain _ _ _ _ ih => rw [ih fun hmem => hslash (List.mem_cons_of_mem _ hmem)]
  | short _ _ => exact absurd (List.mem_cons_self ..) hslash
  | unicode _ _ _ => exact absurd (List.mem_cons_self ..) hslash
  | surrogates _ _ _ _ _ => exact absurd (List.mem_cons_self ..) hslash

end

/-! ### Values -/

/-- The value of a name or a number. -/
def wordValue (number : List Char → Option Number) (text : List Char) : Option Value :=
  if text = ['t', 'r', 'u', 'e'] then some (.bool true)
  else if text = ['f', 'a', 'l', 's', 'e'] then some (.bool false)
  else if text = ['n', 'u', 'l', 'l'] then some .null
  else (number text).map .number

/-- What a row of tokens says: a value, the elements of an array or the members of an object. -/
inductive Content where
  | value (value : Value)
  | elements (values : List Value)
  | members (entries : Map)

inductive Denotes (number : List Char → Option Number) (unique : Bool) :
    (depth : ℕ) → List Token → Content → Prop
  | word {depth : ℕ} {text : List Char} {value : Value} : text ∈ constants ∨ NumberText text →
      wordValue number text = some value →
      Denotes number unique depth [.word text] (.value value)
  | string {depth : ℕ} {body text : List Char} : StringSays body text →
      Denotes number unique depth [.string body] (.value (.string (String.ofList text)))
  | array {depth : ℕ} {tokens : List Token} {values : List Value} :
      Denotes number unique depth tokens (.elements values) →
      Denotes number unique (depth + 1) (.mark '[' :: (tokens ++ [.mark ']']))
        (.value (.array values))
  | object {depth : ℕ} {tokens : List Token} {entries : Map} :
      Denotes number unique depth tokens (.members entries) →
      (unique = true → (entries.map Prod.fst).Nodup) →
      Denotes number unique (depth + 1) (.mark '{' :: (tokens ++ [.mark '}']))
        (.value (.object (Map.extend [] entries)))
  | noElements {depth : ℕ} : Denotes number unique depth [] (.elements [])
  | element {depth : ℕ} {tokens : List Token} {value : Value} :
      Denotes number unique depth tokens (.value value) →
      Denotes number unique depth tokens (.elements [value])
  | elements {depth : ℕ} {tokens rest : List Token} {value next : Value} {values : List Value} :
      Denotes number unique depth tokens (.value value) →
      Denotes number unique depth rest (.elements (next :: values)) →
      Denotes number unique depth (tokens ++ .mark ',' :: rest)
        (.elements (value :: next :: values))
  | noMembers {depth : ℕ} : Denotes number unique depth [] (.members [])
  | member {depth : ℕ} {body name : List Char} {tokens : List Token} {value : Value} :
      StringSays body name → Denotes number unique depth tokens (.value value) →
      Denotes number unique depth (.string body :: .mark ':' :: tokens)
        (.members [(String.ofList name, value)])
  | members {depth : ℕ} {body name : List Char} {tokens rest : List Token} {value : Value}
      {next : String × Value} {entries : Map} :
      StringSays body name → Denotes number unique depth tokens (.value value) →
      Denotes number unique depth rest (.members (next :: entries)) →
      Denotes number unique depth (.string body :: .mark ':' :: (tokens ++ .mark ',' :: rest))
        (.members ((String.ofList name, value) :: next :: entries))

/-- A text with the value that it says. -/
def Says (number : List Char → Option Number) (unique : Bool) (depth : ℕ) (text : List Char)
    (value : Value) : Prop :=
  ∃ tokens, Lexes text tokens ∧ Denotes number unique depth tokens (.value value)

variable {number : List Char → Option Number} {unique unique' : Bool} {depth depth' : ℕ}
  {tokens tokens' rest rest' : List Token} {value value' : Value} {content : Content}

/-! ### One value -/

/-- A row ends where its container is closed. -/
def Closed (rest : List Token) : Prop :=
  ∃ c tail, (c = ']' ∨ c = '}') ∧ rest = .mark c :: tail

theorem Closed.mark (hc : c = ']' ∨ c = '}') (rest : List Token) : Closed (.mark c :: rest) :=
  ⟨c, rest, hc, rfl⟩

theorem Closed.ne_cons (h : Closed rest) (token : Token) (hmark : token ≠ .mark ']')
    (hmark' : token ≠ .mark '}') (tail : List Token) : rest ≠ token :: tail := by
  obtain ⟨c, tail', hc, rfl⟩ := h
  rintro heq
  rcases hc with rfl | rfl
  · exact hmark (List.cons.inj heq).1.symm
  · exact hmark' (List.cons.inj heq).1.symm

/-- A value does not begin with the end of a container. -/
theorem Denotes.ne_closed (h : Denotes number unique depth tokens (.value value))
    (hrest : Closed rest) (back : List Token) : rest ≠ tokens ++ back := by
  cases h with
  | word _ _ => exact hrest.ne_cons _ (by simp) (by simp) _
  | string _ => exact hrest.ne_cons _ (by simp) (by simp) _
  | array _ => exact hrest.ne_cons _ (by simp) (by simp) _
  | object _ _ => exact hrest.ne_cons _ (by simp) (by simp) _

/-- No other row with the same beginning says something else. -/
def Determined (number : List Char → Option Number) (tokens : List Token) : Content → Prop
  | .value value => ∀ {unique : Bool} {depth : ℕ} {tokens' rest rest' : List Token}
      {value' : Value}, Denotes number unique depth tokens' (.value value') →
      tokens ++ rest = tokens' ++ rest' → tokens = tokens' ∧ value = value'
  | .elements values => ∀ {unique : Bool} {depth : ℕ} {tokens' rest rest' : List Token}
      {values' : List Value}, Denotes number unique depth tokens' (.elements values') →
      Closed rest → Closed rest' → tokens ++ rest = tokens' ++ rest' →
      tokens = tokens' ∧ values = values'
  | .members entries => ∀ {unique : Bool} {depth : ℕ} {tokens' rest rest' : List Token}
      {entries' : Map}, Denotes number unique depth tokens' (.members entries') →
      Closed rest → Closed rest' → tokens ++ rest = tokens' ++ rest' →
      tokens = tokens' ∧ entries = entries'

theorem mark_append_inj {c d : Char} {tail tail' : List Token}
    (h : Token.mark c :: tail = .mark d :: tail') : c = d ∧ tail = tail' :=
  ⟨Token.mark.inj (List.cons.inj h).1, (List.cons.inj h).2⟩

theorem Denotes.determined (h : Denotes number unique depth tokens content) :
    Determined number tokens content := by
  induction h with
  | word _ hvalue =>
    intro unique depth tokens' rest rest' value' h' heq
    cases h' with
    | word _ hvalue' =>
      obtain ⟨hword, -⟩ := List.cons.inj heq
      obtain rfl := Token.word.inj hword
      exact ⟨rfl, Option.some.inj (hvalue.symm.trans hvalue')⟩
    | string _ => exact nomatch (List.cons.inj heq).1
    | array _ => exact nomatch (List.cons.inj heq).1
    | object _ _ => exact nomatch (List.cons.inj heq).1
  | string hsaid =>
    intro unique depth tokens' rest rest' value' h' heq
    cases h' with
    | word _ _ => exact nomatch (List.cons.inj heq).1
    | string hsaid' =>
      obtain ⟨hstring, -⟩ := List.cons.inj heq
      obtain rfl := Token.string.inj hstring
      rw [hsaid.unique hsaid']
      exact ⟨rfl, rfl⟩
    | array _ => exact nomatch (List.cons.inj heq).1
    | object _ _ => exact nomatch (List.cons.inj heq).1
  | array _ ih =>
    intro unique depth tokens' rest rest' value' h' heq
    cases h' with
    | word _ _ => exact nomatch (List.cons.inj heq).1
    | string _ => exact nomatch (List.cons.inj heq).1
    | array h' =>
      rw [List.cons_append, List.cons_append, List.append_assoc, List.append_assoc] at heq
      obtain ⟨rfl, rfl⟩ := ih h' (.mark (.inl rfl) _) (.mark (.inl rfl) _) (mark_append_inj heq).2
      exact ⟨rfl, rfl⟩
    | object _ _ => exact absurd (mark_append_inj heq).1 (by decide)
  | object _ _ ih =>
    intro unique depth tokens' rest rest' value' h' heq
    cases h' with
    | word _ _ => exact nomatch (List.cons.inj heq).1
    | string _ => exact nomatch (List.cons.inj heq).1
    | array _ => exact absurd (mark_append_inj heq).1 (by decide)
    | object h' _ =>
      rw [List.cons_append, List.cons_append, List.append_assoc, List.append_assoc] at heq
      obtain ⟨rfl, rfl⟩ := ih h' (.mark (.inr rfl) _) (.mark (.inr rfl) _) (mark_append_inj heq).2
      exact ⟨rfl, rfl⟩
  | noElements =>
    intro unique depth tokens' rest rest' values' h' hrest hrest' heq
    cases h' with
    | noElements => exact ⟨rfl, rfl⟩
    | element h' => exact absurd heq (h'.ne_closed hrest _)
    | elements h' _ =>
      rw [List.append_assoc] at heq
      exact absurd heq (h'.ne_closed hrest _)
  | element h ih =>
    intro unique depth tokens' rest rest' values' h' hrest hrest' heq
    cases h' with
    | noElements => exact absurd heq.symm (h.ne_closed hrest' _)
    | element h' =>
      obtain ⟨rfl, rfl⟩ := ih h' heq
      exact ⟨rfl, rfl⟩
    | elements h' _ =>
      rw [List.append_assoc] at heq
      obtain ⟨rfl, -⟩ := ih h' heq
      exact absurd (List.append_cancel_left heq) (hrest.ne_cons _ (by simp) (by simp) _)
  | elements h _ ih ihRest =>
    intro unique depth tokens' rest rest' values' h' hrest hrest' heq
    rw [List.append_assoc] at heq
    cases h' with
    | noElements => exact absurd heq.symm (h.ne_closed hrest' _)
    | element h' =>
      obtain ⟨rfl, -⟩ := ih h' heq
      exact absurd (List.append_cancel_left heq).symm
        (hrest'.ne_cons _ (by simp) (by simp) _)
    | elements h' hnext =>
      rw [List.append_assoc] at heq
      obtain ⟨rfl, rfl⟩ := ih h' heq
      obtain ⟨rfl, hvalues⟩ := ihRest hnext hrest hrest'
        (mark_append_inj (List.append_cancel_left heq)).2
      rw [hvalues]
      exact ⟨rfl, rfl⟩
  | noMembers =>
    intro unique depth tokens' rest rest' entries' h' hrest hrest' heq
    cases h' with
    | noMembers => exact ⟨rfl, rfl⟩
    | member _ _ => exact absurd heq (hrest.ne_cons _ (by simp) (by simp) _)
    | members _ _ _ => exact absurd heq (hrest.ne_cons _ (by simp) (by simp) _)
  | member hname _ ih =>
    intro unique depth tokens' rest rest' entries' h' hrest hrest' heq
    cases h' with
    | noMembers => exact absurd heq.symm (hrest'.ne_cons _ (by simp) (by simp) _)
    | member hname' h' =>
      obtain ⟨hstring, htail⟩ := List.cons.inj heq
      obtain rfl := Token.string.inj hstring
      obtain ⟨rfl, rfl⟩ := ih h' (mark_append_inj htail).2
      rw [hname.unique hname']
      exact ⟨rfl, rfl⟩
    | members hname' h' _ =>
      simp only [List.cons_append, List.append_assoc] at heq
      obtain ⟨-, htail⟩ := List.cons.inj heq
      have hvalue := (mark_append_inj htail).2
      obtain ⟨rfl, -⟩ := ih h' hvalue
      exact absurd (List.append_cancel_left hvalue) (hrest.ne_cons _ (by simp) (by simp) _)
  | members hname _ _ ih ihRest =>
    intro unique depth tokens' rest rest' entries' h' hrest hrest' heq
    cases h' with
    | noMembers => exact absurd heq.symm (hrest'.ne_cons _ (by simp) (by simp) _)
    | member hname' h' =>
      simp only [List.cons_append, List.append_assoc] at heq
      obtain ⟨-, htail⟩ := List.cons.inj heq
      have hvalue := (mark_append_inj htail).2
      obtain ⟨rfl, -⟩ := ih h' hvalue
      exact absurd (List.append_cancel_left hvalue).symm
        (hrest'.ne_cons _ (by simp) (by simp) _)
    | members hname' h' hnext =>
      simp only [List.cons_append, List.append_assoc] at heq
      obtain ⟨hstring, htail⟩ := List.cons.inj heq
      obtain rfl := Token.string.inj hstring
      have hvalue := (mark_append_inj htail).2
      obtain ⟨rfl, rfl⟩ := ih h' hvalue
      obtain ⟨rfl, hentries⟩ := ihRest hnext hrest hrest'
        (mark_append_inj (List.append_cancel_left hvalue)).2
      rw [hname.unique hname', hentries]
      exact ⟨rfl, rfl⟩

/-- A text says one value. -/
theorem Says.value_eq (h : Says number unique depth text value)
    (h' : Says number unique' depth' text value') : value = value' := by
  obtain ⟨tokens, hlexes, hvalue⟩ := h
  obtain ⟨tokens', hlexes', hvalue'⟩ := h'
  obtain rfl := hlexes.unique hlexes'
  exact (hvalue.determined hvalue' (Eq.refl (tokens ++ []))).2

/-! ### Weights -/

mutual

/-- The weight of the objects and of the strings of a value. -/
def weigh (object : ℕ) (string : List Char → ℕ) : Value → ℕ
  | .string text => string text.toList
  | .array values => weighAll object string values
  | .object entries => object + weighEntries object string entries
  | _ => 0

def weighAll (object : ℕ) (string : List Char → ℕ) : List Value → ℕ
  | [] => 0
  | value :: values => weigh object string value + weighAll object string values

def weighEntries (object : ℕ) (string : List Char → ℕ) : List (String × Value) → ℕ
  | [] => 0
  | (key, value) :: entries =>
    string key.toList + weigh object string value + weighEntries object string entries

end

def Content.weigh (object : ℕ) (string : List Char → ℕ) : Content → ℕ
  | .value value => JsonText.weigh object string value
  | .elements values => weighAll object string values
  | .members entries => weighEntries object string entries

/-- The weight of a token, where the braces and the bodies of the strings have a weight. -/
def Token.weigh (opening closing : ℕ) (body : List Char → ℕ) : Token → ℕ
  | .mark c => if c = '{' then opening else if c = '}' then closing else 0
  | .word _ => 0
  | .string text => body text

section Entries

variable {object : ℕ} {string : List Char → ℕ} {key : String} {map entries : Map}

theorem weighEntries_insert_le : weighEntries object string (Map.insert key value map) ≤
    string key.toList + weigh object string value + weighEntries object string map := by
  induction map with
  | nil => exact le_rfl
  | cons entry map ih =>
    rw [Map.insert]
    split
    · simp only [weighEntries]
      omega
    · split
      · exact le_rfl
      · simp only [weighEntries]
        omega

theorem weighEntries_insert (h : key ∉ map.map Prod.fst) :
    weighEntries object string (Map.insert key value map) =
      string key.toList + weigh object string value + weighEntries object string map := by
  induction map with
  | nil => rfl
  | cons entry map ih =>
    rw [List.map_cons, List.mem_cons, not_or] at h
    rw [Map.insert, if_neg h.1]
    split
    · rfl
    · simp only [weighEntries]
      rw [ih h.2]
      omega

theorem mem_keys_insert {other : String}
    (h : other ∈ (Map.insert key value map).map Prod.fst) :
    other = key ∨ other ∈ map.map Prod.fst := by
  induction map with
  | nil => exact .inl (List.mem_singleton.mp h)
  | cons entry map ih =>
    rw [Map.insert] at h
    split at h
    · rcases List.mem_cons.mp h with rfl | h
      · exact .inl rfl
      · exact .inr (List.mem_cons_of_mem _ h)
    · split at h
      · exact List.mem_cons.mp h
      · rcases List.mem_cons.mp h with rfl | h
        · exact .inr (List.mem_cons_self ..)
        · exact (ih h).imp_right (List.mem_cons_of_mem _)

/-- An entry that takes the place of another one makes the map lighter. -/
theorem weighEntries_extend_le (map entries : Map) :
    weighEntries object string (Map.extend map entries) ≤
      weighEntries object string map + weighEntries object string entries := by
  induction entries generalizing map with
  | nil => exact le_rfl
  | cons entry entries ih =>
    have hinsert := @weighEntries_insert_le entry.2 object string entry.1 map
    have hrest := ih (Map.insert entry.1 entry.2 map)
    rw [weighEntries]
    exact hrest.trans (by omega)

theorem weighEntries_extend (hnodup : (entries.map Prod.fst).Nodup)
    (hnew : ∀ key ∈ entries.map Prod.fst, key ∉ map.map Prod.fst) :
    weighEntries object string (Map.extend map entries) =
      weighEntries object string map + weighEntries object string entries := by
  induction entries generalizing map with
  | nil => rfl
  | cons entry entries ih =>
    rw [List.map_cons, List.nodup_cons] at hnodup
    have hinsert := @weighEntries_insert entry.2 object string entry.1 map
      (hnew _ (List.mem_cons_self ..))
    have hrest := @ih (Map.insert entry.1 entry.2 map) hnodup.2 fun key hkey hmem => by
      rcases mem_keys_insert hmem with rfl | hmem
      · exact hnodup.1 hkey
      · exact hnew key (List.mem_cons_of_mem _ hkey) hmem
    rw [weighEntries]
    exact hrest.trans (by omega)

end Entries

section Bounds

variable {opening closing : ℕ} {string body : List Char → ℕ}

/-- What the tokens weigh. -/
def weighTokens (opening closing : ℕ) (body : List Char → ℕ) (tokens : List Token) : ℕ :=
  (tokens.map (Token.weigh opening closing body)).sum

theorem weighTokens_append (tokens rest : List Token) :
    weighTokens opening closing body (tokens ++ rest) =
      weighTokens opening closing body tokens + weighTokens opening closing body rest := by
  rw [weighTokens, List.map_append, List.sum_append]
  rfl

theorem weighTokens_cons (token : Token) (rest : List Token) :
    weighTokens opening closing body (token :: rest) =
      token.weigh opening closing body + weighTokens opening closing body rest := by
  rw [weighTokens, List.map_cons, List.sum_cons]
  rfl

theorem weighTokens_nil : weighTokens opening closing body [] = 0 := rfl

theorem weigh_word (h : wordValue number text = some value) :
    weigh (opening + closing) string value = 0 := by
  unfold wordValue at h
  split at h
  · rw [← Option.some.inj h]; rfl
  · split at h
    · rw [← Option.some.inj h]; rfl
    · split at h
      · rw [← Option.some.inj h]; rfl
      · obtain ⟨n, -, rfl⟩ := Option.map_eq_some_iff.mp h
        rfl

/-- A value weighs as its tokens do, up to a relation that sums respect, when each string and the
map of each row of entries do. -/
theorem Denotes.weigh_rel {R : ℕ → ℕ → Prop} (hrefl : ∀ n, R n n)
    (htrans : ∀ {a b c}, R a b → R b c → R a c)
    (hadd : ∀ {a b c d}, R a b → R c d → R (a + c) (b + d))
    (hmap : ∀ entries : Map, (unique = true → (entries.map Prod.fst).Nodup) →
      R (weighEntries (opening + closing) string (Map.extend [] entries))
        (weighEntries (opening + closing) string entries))
    (h : Denotes number unique depth tokens content)
    (hstring : ∀ code text, .string code ∈ tokens → StringSays code text →
      R (string text) (body code)) :
    R (content.weigh (opening + closing) string) (weighTokens opening closing body tokens) := by
  induction h with
  | word _ hvalue =>
    show R (weigh _ string _) 0
    rw [weigh_word hvalue]
    exact hrefl 0
  | @string _ code text hsaid =>
    rw [weighTokens_cons, weighTokens_nil, Nat.add_zero]
    show R (string (String.ofList text).toList) (body code)
    rw [String.toList_ofList]
    exact hstring code text (List.mem_singleton_self _) hsaid
  | @array _ tokens values _ ih =>
    have hinner := ih fun code text hmem => hstring code text (by simp [hmem])
    rw [weighTokens_cons, weighTokens_append]
    exact (Nat.zero_add (weighTokens opening closing body tokens)).symm ▸ hinner
  | @object _ tokens entries _ hnodup ih =>
    have hinner := ih fun code text hmem => hstring code text (by simp [hmem])
    rw [weighTokens_cons, weighTokens_append, weighTokens_cons, weighTokens_nil, Nat.add_left_comm]
    show R (opening + closing + weighEntries _ string (Map.extend [] entries))
      (weighTokens opening closing body tokens + (opening + (closing + 0)))
    rw [Nat.add_zero, Nat.add_comm (weighTokens ..)]
    exact hadd (hrefl _) (htrans (hmap entries hnodup) hinner)
  | noElements | noMembers => exact hrefl 0
  | element _ ih => exact ih hstring
  | @elements _ tokens rest value next values _ _ ih ihRest =>
    have hfirst := ih fun code text hmem => hstring code text (by simp [hmem])
    have hrest := ihRest fun code text hmem => hstring code text (by simp [hmem])
    rw [weighTokens_append, weighTokens_cons]
    show R _ (_ + (0 + _))
    rw [Nat.zero_add]
    exact hadd hfirst hrest
  | @member _ code name tokens value hname _ ih =>
    have hkey := hstring code name (List.mem_cons_self ..) hname
    have hvalue := ih fun code text hmem => hstring code text (by simp [hmem])
    rw [weighTokens_cons, weighTokens_cons]
    show R (string (String.ofList name).toList + weigh _ string value + 0) (body code + (0 + _))
    rw [String.toList_ofList, Nat.zero_add, Nat.add_zero]
    exact hadd hkey hvalue
  | @members _ code name tokens rest value next entries hname _ _ ih ihRest =>
    have hkey := hstring code name (List.mem_cons_self ..) hname
    have hvalue := ih fun code text hmem => hstring code text (by simp [hmem])
    have hrest := ihRest fun code text hmem => hstring code text (by simp [hmem])
    rw [weighTokens_cons, weighTokens_cons, weighTokens_append, weighTokens_cons]
    show R (string (String.ofList name).toList + weigh _ string value + weighEntries _ string _)
      (body code + (0 + (_ + (0 + _))))
    rw [String.toList_ofList, Nat.zero_add, Nat.zero_add, ← Nat.add_assoc]
    exact hadd (hadd hkey hvalue) hrest

/-- A value is at most as heavy as its tokens, when each string is. -/
theorem Denotes.weigh_le (h : Denotes number unique depth tokens content)
    (hstring : ∀ code text, .string code ∈ tokens → StringSays code text →
      string text ≤ body code) :
    content.weigh (opening + closing) string ≤ weighTokens opening closing body tokens :=
  h.weigh_rel Nat.le_refl Nat.le_trans Nat.add_le_add
    (fun entries _ => (weighEntries_extend_le [] entries).trans (Nat.zero_add _).le) hstring

/-- Where no name is repeated, tokens are at most as heavy as their value, when each string is. -/
theorem Denotes.le_weigh (h : Denotes number true depth tokens content)
    (hstring : ∀ code text, .string code ∈ tokens → StringSays code text →
      body code ≤ string text) :
    weighTokens opening closing body tokens ≤ content.weigh (opening + closing) string := by
  refine h.weigh_rel (R := fun a b => b ≤ a) Nat.le_refl (fun h h' => Nat.le_trans h' h)
    Nat.add_le_add (fun entries hnodup => ?_) hstring
  have hmap := @weighEntries_extend (opening + closing) string [] entries (hnodup rfl)
    fun _ _ hmem => nomatch hmem
  exact (Nat.zero_add _).symm.le.trans hmap.symm.le

end Bounds

/-! ### Texts with one value -/

/-- The body of each string says a text. -/
theorem Denotes.exists_said (h : Denotes number unique depth tokens content)
    (hmem : .string body ∈ tokens) : ∃ text, StringSays body text := by
  have hmark {c : Char} {token : Token} {rest : List Token} (hc : token = .mark c)
      (hmem : .string body ∈ token :: rest) : .string body ∈ rest :=
    (List.mem_cons.mp hmem).resolve_left fun h => nomatch h.trans hc
  induction h with
  | word _ _ => exact nomatch List.mem_singleton.mp hmem
  | string hsaid =>
    obtain rfl := Token.string.inj (List.mem_singleton.mp hmem)
    exact ⟨_, hsaid⟩
  | array _ ih =>
    rcases List.mem_append.mp (hmark rfl hmem) with hmem | hmem
    · exact ih hmem
    · exact nomatch List.mem_singleton.mp hmem
  | object _ _ ih =>
    rcases List.mem_append.mp (hmark rfl hmem) with hmem | hmem
    · exact ih hmem
    · exact nomatch List.mem_singleton.mp hmem
  | noElements => exact nomatch hmem
  | element _ ih => exact ih hmem
  | elements _ _ ih ihRest =>
    rcases List.mem_append.mp hmem with hmem | hmem
    · exact ih hmem
    · exact ihRest (hmark rfl hmem)
  | noMembers => exact nomatch hmem
  | member hname _ ih =>
    rcases List.mem_cons.mp hmem with h | hmem
    · obtain rfl := Token.string.inj h
      exact ⟨_, hname⟩
    · exact ih (hmark rfl hmem)
  | members hname _ _ ih ihRest =>
    rcases List.mem_cons.mp hmem with h | hmem
    · obtain rfl := Token.string.inj h
      exact ⟨_, hname⟩
    · rcases List.mem_append.mp (hmark rfl hmem) with hmem | hmem
      · exact ih hmem
      · exact ihRest (hmark rfl hmem)

theorem not_mem_body (hlexes : Lexes text tokens) (hslash : '\\' ∉ text) {body : List Char}
    (hmem : .string body ∈ tokens) : '\\' ∉ body := by
  intro hbody
  apply hslash
  rw [hlexes.mem_iff (by decide)]
  exact ⟨.string body, hmem, by simp [Token.chars, literal, hbody]⟩

section Respaced

variable {change : Char → List Char} (hchange : Respaces change)

include hchange

/-- A change of the white space leaves the value as it is. -/
theorem Says.respace (h : Says number unique depth text value) (hslash : '\\' ∉ text) :
    Says number unique depth (text.flatMap change) value := by
  obtain ⟨tokens, hlexes, hvalue⟩ := h
  have hsame : ∀ body, .string body ∈ tokens → body.flatMap change = body := by
    intro body hmem
    obtain ⟨said, hsaid⟩ := hvalue.exists_said hmem
    have hbody := not_mem_body hlexes hslash hmem
    apply hchange.flatMap_eq
    intro c hc
    exact ⟨hsaid.le_toNat c hc, fun heq => hbody (heq ▸ hc)⟩
  have hrespaced := hlexes.respace hchange fun body hmem => by
    rw [hsame body hmem]
    exact hlexes.literalBody hmem
  rw [map_respace_eq hsame] at hrespaced
  exact ⟨tokens, hrespaced, hvalue⟩

end Respaced

/-- What the braces and quotes of a text are in its tokens. -/
theorem Lexes.count_eq_weigh (h : Lexes text tokens) (hc : c = '{' ∨ c = '}' ∨ c = '"') :
    text.count c = weighTokens (if c = '{' then 1 else 0) (if c = '}' then 1 else 0)
      (fun body => (literal body).count c) tokens := by
  have hscalar : isScalarChar c = false := by rcases hc with rfl | rfl | rfl <;> decide
  have hblank : isBlank c = false := by rcases hc with rfl | rfl | rfl <;> decide
  induction h with
  | nil => rfl
  | @blank d _ _ hd _ ih =>
    have hne : d ≠ c := by rintro rfl; rw [hblank] at hd; exact nomatch hd
    rw [List.count_cons_of_ne hne, ih]
  | @mark d _ _ _ _ ih =>
    rw [weighTokens_cons, ← ih, List.count_cons, Token.weigh]
    rcases hc with rfl | rfl | rfl
    · by_cases hd : d = '{'
      · simp [hd, Nat.add_comm]
      · simp [hd]
    · by_cases hd : d = '}'
      · simp [hd, Nat.add_comm]
      · simp [hd]
    · by_cases hd : d = '"'
      · simp_all [isMark]
      · simp [hd]
  | @word d run _ _ hd hrun _ _ ih =>
    have hcount : (d :: run).count c = 0 := by
      apply List.count_eq_zero_of_not_mem
      intro hmem
      exact ne_of_isScalarChar (List.forall_mem_cons.mpr ⟨hd, hrun⟩) hscalar c hmem rfl
    rw [weighTokens_cons, ← ih, ← List.cons_append, List.count_append, hcount]
    rfl
  | @string code _ _ _ _ ih =>
    rw [weighTokens_cons, ← ih, ← literal_append, List.count_append]
    rfl

theorem count_literal (body : List Char) (c : Char) :
    (literal body).count c = body.count c + ['"', '"'].count c := by
  simp only [literal, List.count_cons, List.count_append, List.count_nil]
  omega

/-- Of the texts that say a value, one that repeats no name has the fewest braces and quotes, and so
has each one without escapes. -/
theorem Says.count_le (h : Says number true depth text value)
    (h' : Says number unique depth' text' value) (hslash : '\\' ∉ text')
    (hc : c = '{' ∨ c = '}' ∨ c = '"') : text.count c ≤ text'.count c := by
  obtain ⟨tokens, hlexes, hvalue⟩ := h
  obtain ⟨tokens', hlexes', hvalue'⟩ := h'
  have hheavy : weighTokens (if c = '{' then 1 else 0) (if c = '}' then 1 else 0)
      (fun code => (literal code).count c) tokens ≤ (Content.value value).weigh
        ((if c = '{' then 1 else 0) + (if c = '}' then 1 else 0))
        (fun said => (literal said).count c) := by
    apply hvalue.le_weigh
    intro code said _ hsaid
    have hle := hsaid.count_le hc
    rw [count_literal, count_literal]
    omega
  rw [hlexes.count_eq_weigh hc, hlexes'.count_eq_weigh hc]
  refine hheavy.trans (hvalue'.weigh_le ?_)
  intro code said hmem hsaid
  rw [hsaid.eq_of_not_mem (not_mem_body hlexes' hslash hmem)]

theorem not_mem_quote (h : LiteralBody body) (hslash : '\\' ∉ body) : '"' ∉ body := by
  induction h with
  | nil => exact List.not_mem_nil
  | plain hquote _ _ ih =>
    rw [List.mem_cons, not_or]
    exact ⟨hquote.symm, ih fun hmem => hslash (List.mem_cons_of_mem _ hmem)⟩
  | escape _ _ => exact absurd (List.mem_cons_self ..) hslash

/-- A backslash stands in a string. -/
theorem Lexes.exists_body (h : Lexes text tokens) (hslash : '\\' ∈ text) :
    ∃ body, .string body ∈ tokens ∧ '\\' ∈ body := by
  have hcons {token : Token} {rest : List Token}
      (h : ∃ body, .string body ∈ rest ∧ '\\' ∈ body) :
      ∃ body, .string body ∈ token :: rest ∧ '\\' ∈ body := by
    obtain ⟨body, hmem, hbody⟩ := h
    exact ⟨body, List.mem_cons_of_mem _ hmem, hbody⟩
  induction h with
  | nil => exact nomatch hslash
  | blank hc _ ih =>
    rcases List.mem_cons.mp hslash with rfl | hslash
    · exact absurd hc (by decide)
    · exact ih hslash
  | mark hc _ ih =>
    rcases List.mem_cons.mp hslash with rfl | hslash
    · exact absurd hc (by decide)
    · exact hcons (ih hslash)
  | word hc hrun _ _ ih =>
    rcases List.mem_cons.mp hslash with rfl | hslash
    · exact absurd hc (by decide)
    · rcases List.mem_append.mp hslash with hslash | hslash
      · exact absurd (hrun _ hslash) (by decide)
      · exact hcons (ih hslash)
  | @string code _ _ _ _ ih =>
    rcases List.mem_cons.mp hslash with h | hslash
    · exact absurd h (by decide)
    · rcases List.mem_append.mp hslash with hslash | hslash
      · exact ⟨code, List.mem_cons_self .., hslash⟩
      · exact hcons (ih ((List.mem_cons.mp hslash).resolve_left (by decide)))

theorem le_weighTokens {opening closing : ℕ} {weight : List Char → ℕ}
    (hmem : .string body ∈ tokens) : weight body ≤ weighTokens opening closing weight tokens := by
  induction tokens with
  | nil => exact nomatch hmem
  | cons token tokens ih =>
    rw [weighTokens_cons]
    rcases List.mem_cons.mp hmem with rfl | hmem
    · exact Nat.le_add_right ..
    · exact (ih hmem).trans (Nat.le_add_left ..)

/-- The bodies of a text hold no quote when another text of its value has no escape. -/
theorem Says.not_mem_body (h : Says number true depth text value) (hlexes : Lexes text tokens)
    (h' : Says number unique depth' text' value) (hslash : '\\' ∉ text')
    (hmem : .string body ∈ tokens) : '"' ∉ body := by
  obtain ⟨tokens₀, hlexes₀, hvalue⟩ := h
  obtain ⟨tokens', hlexes', hvalue'⟩ := h'
  obtain rfl := hlexes.unique hlexes₀
  have hnone : (Content.value value).weigh (0 + 0) (·.count '"') ≤
      weighTokens 0 0 (fun _ => 0) tokens' := by
    apply hvalue'.weigh_le
    intro code said hcode hsaid
    have hplain := JsonText.not_mem_body hlexes' hslash hcode
    rw [hsaid.eq_of_not_mem hplain]
    exact (List.count_eq_zero_of_not_mem (not_mem_quote (hlexes'.literalBody hcode) hplain)).le
  have hzero : weighTokens 0 0 (fun _ => 0) tokens' = 0 := by
    apply List.sum_eq_zero
    intro weight hweight
    obtain ⟨token, -, rfl⟩ := List.mem_map.mp hweight
    cases token with
    | mark d => simp [Token.weigh]
    | word => rfl
    | string => rfl
  have hquotes : weighTokens 0 0 (·.count '"') tokens ≤
      (Content.value value).weigh (0 + 0) (·.count '"') :=
    hvalue.le_weigh fun code said _ hsaid => hsaid.count_le (.inr (.inr rfl))
  have hbody : body.count '"' ≤ weighTokens 0 0 (·.count '"') tokens :=
    @le_weighTokens body tokens 0 0 (·.count '"') hmem
  rw [← List.count_eq_zero]
  omega

/-- A change of single characters that leaves all but the backslashes. -/
theorem Respaces.flatMap_eq_map {change : Char → List Char} (hchange : Respaces change)
    (hspace : change '\\' = [' ']) (hle : ∀ c ∈ body, 32 ≤ c.toNat) :
    body.flatMap change = body.map fun c => if c = '\\' then ' ' else c := by
  induction body with
  | nil => rfl
  | cons c body ih =>
    rw [List.flatMap_cons, ih fun d hd => hle d (List.mem_cons_of_mem _ hd), List.map_cons]
    split
    · next heq => rw [heq, hspace]; rfl
    · next hne => rw [hchange.kept c (hle c (List.mem_cons_self ..)) hne]; rfl

/-- Spaces in the place of the backslashes change the value, unless there are none. -/
theorem Says.not_mem_of_respace {change : Char → List Char} (hchange : Respaces change)
    (hspace : change '\\' = [' ']) (h : Says number true depth text value)
    (h' : Says number unique depth' (text.flatMap change) value)
    (hslash : '\\' ∉ text.flatMap change) : '\\' ∉ text := by
  obtain ⟨tokens, hlexes, hvalue⟩ := h
  have hmap : ∀ body, .string body ∈ tokens →
      body.flatMap change = body.map fun c => if c = '\\' then ' ' else c := by
    intro body hmem
    obtain ⟨said, hsaid⟩ := hvalue.exists_said hmem
    exact hchange.flatMap_eq_map hspace hsaid.le_toNat
  -- each string of the changed text holds the characters of the body
  have hrespaced : Lexes (text.flatMap change) (tokens.map (Token.respace change)) := by
    apply hlexes.respace hchange
    intro body hmem
    have hquote := Says.not_mem_body ⟨tokens, hlexes, hvalue⟩ hlexes h' hslash hmem
    rw [hmap body hmem]
    apply LiteralBody.of_plain
    intro c hc
    obtain ⟨d, hd, rfl⟩ := List.mem_map.mp hc
    split
    · decide
    · next hne => exact ⟨fun heq => hquote (heq ▸ hd), hne⟩
  obtain ⟨tokens', hlexes', hvalue'⟩ := h'
  obtain rfl := hrespaced.unique hlexes'
  intro hmem
  -- the shorter the strings are, the heavier they are
  have hheavy : weighTokens 0 0 (fun body => text.length - body.length +
      if '\\' ∈ body then 1 else 0) tokens ≤
      (Content.value value).weigh (0 + 0) (text.length - ·.length) := by
    apply hvalue.le_weigh
    intro code said hcode hsaid
    have hlong := hlexes.length_le hcode
    have hshort := hsaid.length_le
    split
    · next hin =>
      have hlt := hshort.2 hin
      omega
    · omega
  have hlight : (Content.value value).weigh (0 + 0) (text.length - ·.length) ≤
      weighTokens 0 0 (text.length - ·.length) (tokens.map (Token.respace change)) := by
    apply hvalue'.weigh_le
    intro code said hcode hsaid
    rw [hsaid.eq_of_not_mem (JsonText.not_mem_body hlexes' hslash hcode)]
  have hlt : weighTokens 0 0 (text.length - ·.length) (tokens.map (Token.respace change)) <
      weighTokens 0 0 (fun body => text.length - body.length +
        if '\\' ∈ body then 1 else 0) tokens := by
    rw [weighTokens, List.map_map]
    apply List.sum_lt_sum
    · intro token htoken
      cases token with
      | mark d => exact le_rfl
      | word => exact le_rfl
      | string code =>
        show text.length - (code.flatMap change).length ≤ text.length - code.length + _
        rw [hmap code htoken, List.length_map]
        exact Nat.le_add_right ..
    · obtain ⟨code, hcode, hin⟩ := hlexes.exists_body hmem
      refine ⟨.string code, hcode, ?_⟩
      show text.length - (code.flatMap change).length < text.length - code.length +
        if '\\' ∈ code then 1 else 0
      rw [hmap code hcode, List.length_map, if_pos hin]
      exact Nat.lt_succ_self _
  exact absurd (hheavy.trans hlight) (Nat.not_le.mpr hlt)

/-! ### Objects -/

/-- The text of an object, between white space. -/
theorem Says.exists_object {entries : Map} (h : Says number unique depth text (.object entries)) :
    ∃ before inner after, Blank before ∧ Blank after ∧
      text = before ++ '{' :: (inner ++ '}' :: after) ∧
      Says number unique depth ('{' :: (inner ++ ['}'])) (.object entries) := by
  obtain ⟨tokens, hlexes, hvalue⟩ := h
  cases hvalue with
  | word _ hword =>
    have hlight := @weigh_word _ _ _ 1 0 (fun _ => 0) hword
    rw [weigh] at hlight
    omega
  | @object depth row entries hrow hnodup =>
    obtain ⟨before, rest, hbefore, rfl, hrest⟩ := hlexes.exists_of_mark_cons
    obtain ⟨inner, after, hafter, rfl, hinner⟩ := hrest.exists_of_append_mark
    have hclosing : Lexes ['}'] [.mark '}'] := .mark (by decide) .nil
    refine ⟨before, inner, after, hbefore, hafter, rfl, _, .mark (by decide)
      (hinner.append hclosing ?_), .object hrow hnodup⟩
    intro token htoken
    obtain rfl := Option.some.inj htoken
    rfl

/-- White space around a text. -/
theorem Says.pad {before after : List Char} (hbefore : Blank before)
    (h : Says number unique depth text value) (hafter : Blank after) :
    Says number unique depth (before ++ (text ++ after)) value := by
  obtain ⟨tokens, hlexes, hvalue⟩ := h
  have happend := hlexes.append (.of_blank hafter) fun _ htoken => nomatch htoken
  rw [List.append_nil] at happend
  exact ⟨tokens, .blank_append hbefore happend, hvalue⟩

/-! ### A reader -/

open Classical in
/-- The reader of the texts that say a value. -/
noncomputable def reader (number : List Char → Option Number) (depth : ℕ) (text : String) :
    Except String Value :=
  if h : ∃ value, Says number false depth text.toList value then .ok h.choose
  else .error "invalid JSON"

theorem reader_eq_ok_iff {text : String} :
    reader number depth text = .ok value ↔ Says number false depth text.toList value := by
  unfold reader
  split
  · next h =>
    rw [Except.ok.injEq]
    constructor
    · rintro rfl
      exact h.choose_spec
    · exact fun hvalue => h.choose_spec.value_eq hvalue
  · next h => exact ⟨fun hvalue => (nomatch hvalue), fun hvalue => absurd ⟨value, hvalue⟩ h⟩

end GraphLoom.Foundation.JsonText
