import Mathlib.Data.List.Basic

/-!
# Text

White space of strings, and what they start and end with.
-/

namespace GraphLoom

/-- The Unicode property `White_Space`. -/
def isWhiteSpace (c : Char) : Bool :=
  let n := c.toNat
  (9 ≤ n && n ≤ 13) || n == 0x20 || n == 0x85 || n == 0xA0 || n == 0x1680 ||
    (0x2000 ≤ n && n ≤ 0x200A) || n == 0x2028 || n == 0x2029 || n == 0x202F || n == 0x205F ||
    n == 0x3000

/-- `str::trim`. -/
def trim (s : String) : String :=
  String.ofList ((s.toList.dropWhile isWhiteSpace).reverse.dropWhile isWhiteSpace).reverse

/-- `str::strip_prefix`. -/
def stripPrefix (front text : String) : Option String :=
  if front.toList <+: text.toList then
    some (String.ofList (text.toList.drop front.toList.length))
  else none

/-- `str::strip_suffix`. -/
def stripSuffix (back text : String) : Option String :=
  if back.toList <:+ text.toList then
    some (String.ofList (text.toList.take (text.toList.length - back.toList.length)))
  else none

/-- `str::starts_with`. -/
def startsWith (front text : String) : Bool := (stripPrefix front text).isSome

/-- `str::ends_with`. -/
def endsWith (back text : String) : Bool := (stripSuffix back text).isSome

theorem stripPrefix_eq_some_iff {front text rest : String} :
    stripPrefix front text = some rest ↔ text = front ++ rest := by
  unfold stripPrefix
  rw [← String.toList_inj, String.toList_append]
  constructor
  · split
    · rename_i h
      rintro heq
      obtain rfl := Option.some.inj heq
      rw [String.toList_ofList, List.prefix_iff_eq_append.mp h]
    · exact fun heq => nomatch heq
  · intro h
    rw [h, if_pos (List.prefix_append _ _), List.drop_left, String.ofList_toList]

theorem stripSuffix_eq_some_iff {back text rest : String} :
    stripSuffix back text = some rest ↔ text = rest ++ back := by
  unfold stripSuffix
  rw [← String.toList_inj, String.toList_append]
  constructor
  · split
    · rename_i h
      rintro heq
      obtain rfl := Option.some.inj heq
      rw [String.toList_ofList, List.suffix_iff_eq_append.mp h]
    · exact fun heq => nomatch heq
  · intro h
    rw [h, if_pos (List.suffix_append _ _), List.length_append, Nat.add_sub_cancel,
      List.take_left, String.ofList_toList]

theorem startsWith_iff {front text : String} :
    startsWith front text ↔ ∃ rest, text = front ++ rest := by
  simp [startsWith, Option.isSome_iff_exists, stripPrefix_eq_some_iff]

theorem endsWith_iff {back text : String} : endsWith back text ↔ ∃ rest, text = rest ++ back := by
  simp [endsWith, Option.isSome_iff_exists, stripSuffix_eq_some_iff]

end GraphLoom
