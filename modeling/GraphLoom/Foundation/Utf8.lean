import Mathlib.Data.List.Infix

/-!
# Byte offsets into a text

A text is a list of characters, and its bytes are those of the UTF-8 encodings of these.  A byte
offset between two characters splits the text, and any other one leads to nothing
(`splitAtByte_eq_some_iff`).  A byte below 128 stands for a character of its own
(`exists_of_getElem?_asBytes`).
-/

namespace GraphLoom.Foundation

/-- The UTF-8 encoding. -/
def asBytes (cs : List Char) : List UInt8 := cs.flatMap String.utf8EncodeChar

/-- The number of bytes. -/
def byteLength : List Char → ℕ
  | [] => 0
  | c :: cs => c.utf8Size + byteLength cs

/-- What lies before a byte offset and what lies behind it. -/
def splitAtByte : List Char → ℕ → Option (List Char × List Char)
  | cs, 0 => some ([], cs)
  | [], _ + 1 => none
  | c :: cs, n + 1 =>
    if c.utf8Size ≤ n + 1 then
      (splitAtByte cs (n + 1 - c.utf8Size)).map fun halves => (c :: halves.1, halves.2)
    else none

/-- What lies behind a byte offset. -/
def sliceFrom (cs : List Char) (start : ℕ) : Option (List Char) :=
  (splitAtByte cs start).map (·.2)

/-- What lies between two byte offsets. -/
def byteSlice (cs : List Char) (start stop : ℕ) : Option (List Char) :=
  (splitAtByte cs stop).bind fun halves => sliceFrom halves.1 start

variable {cs front back : List Char} {c : Char} {n : ℕ}

/-! ### Lengths -/

@[simp]
theorem byteLength_nil : byteLength [] = 0 := rfl

@[simp]
theorem byteLength_cons (c : Char) (cs : List Char) :
    byteLength (c :: cs) = c.utf8Size + byteLength cs := rfl

@[simp]
theorem byteLength_append (front back : List Char) :
    byteLength (front ++ back) = byteLength front + byteLength back := by
  induction front with
  | nil => simp
  | cons c front ih =>
    rw [List.cons_append, byteLength_cons, byteLength_cons, ih]
    omega

/-- A character has at least one byte. -/
theorem length_le_byteLength (cs : List Char) : cs.length ≤ byteLength cs := by
  induction cs with
  | nil => exact Nat.le_refl _
  | cons c cs ih =>
    have hpos : 0 < c.utf8Size := Char.utf8Size_pos c
    rw [List.length_cons, byteLength_cons]
    omega

@[simp]
theorem asBytes_cons (c : Char) (cs : List Char) :
    asBytes (c :: cs) = String.utf8EncodeChar c ++ asBytes cs := rfl

@[simp]
theorem asBytes_append (front back : List Char) :
    asBytes (front ++ back) = asBytes front ++ asBytes back :=
  List.flatMap_append

@[simp]
theorem length_asBytes (cs : List Char) : (asBytes cs).length = byteLength cs := by
  induction cs with
  | nil => rfl
  | cons c cs ih =>
    rw [asBytes_cons, List.length_append, String.length_utf8EncodeChar, ih, byteLength_cons]

/-! ### Splitting at an offset -/

/-- An offset splits a text exactly when it lies between two characters. -/
theorem splitAtByte_eq_some_iff :
    splitAtByte cs n = some (front, back) ↔ cs = front ++ back ∧ n = byteLength front := by
  induction cs generalizing n front with
  | nil =>
    cases n with
    | zero =>
      rw [splitAtByte]
      constructor
      · rintro h
        obtain ⟨rfl, rfl⟩ := Prod.mk.inj (Option.some.inj h)
        exact ⟨rfl, rfl⟩
      · rintro ⟨hsplit, -⟩
        obtain ⟨rfl, rfl⟩ := List.append_eq_nil_iff.mp hsplit.symm
        rfl
    | succ n =>
      rw [splitAtByte]
      constructor
      · exact fun h => nomatch h
      · rintro ⟨hsplit, hlength⟩
        obtain ⟨rfl, rfl⟩ := List.append_eq_nil_iff.mp hsplit.symm
        exact absurd hlength (Nat.succ_ne_zero n)
  | cons c cs ih =>
    have hpos : 0 < c.utf8Size := Char.utf8Size_pos c
    cases n with
    | zero =>
      rw [splitAtByte]
      constructor
      · rintro h
        obtain ⟨rfl, rfl⟩ := Prod.mk.inj (Option.some.inj h)
        exact ⟨rfl, rfl⟩
      · rintro ⟨hsplit, hlength⟩
        cases front with
        | nil => rw [hsplit, List.nil_append]
        | cons d front =>
          have hd : 0 < d.utf8Size := Char.utf8Size_pos d
          rw [byteLength_cons] at hlength
          omega
    | succ n =>
      rw [splitAtByte]
      constructor
      · split
        · next hle =>
          intro h
          obtain ⟨⟨front', back'⟩, hrest, heq⟩ := Option.map_eq_some_iff.mp h
          obtain ⟨rfl, rfl⟩ := Prod.mk.inj heq
          obtain ⟨rfl, hlength⟩ := ih.mp hrest
          exact ⟨rfl, by rw [byteLength_cons, ← hlength]; omega⟩
        · exact fun h => nomatch h
      · rintro ⟨hsplit, hlength⟩
        cases front with
        | nil => exact absurd hlength (Nat.succ_ne_zero n)
        | cons d front =>
          obtain ⟨rfl, hcs⟩ := List.cons.inj hsplit
          rw [byteLength_cons] at hlength
          have hrest : splitAtByte cs (n + 1 - c.utf8Size) = some (front, back) :=
            ih.mpr ⟨hcs, by omega⟩
          rw [if_pos (by omega), hrest]
          rfl

@[simp]
theorem splitAtByte_append (front back : List Char) :
    splitAtByte (front ++ back) (byteLength front) = some (front, back) :=
  splitAtByte_eq_some_iff.mpr ⟨rfl, rfl⟩

@[simp]
theorem sliceFrom_append (front back : List Char) :
    sliceFrom (front ++ back) (byteLength front) = some back := by
  rw [sliceFrom, splitAtByte_append]
  rfl

theorem byteSlice_append (front inner back : List Char) :
    byteSlice (front ++ (inner ++ back)) (byteLength front) (byteLength front + byteLength inner) =
      some inner := by
  rw [byteSlice, ← List.append_assoc, ← byteLength_append, splitAtByte_append, Option.bind_some,
    sliceFrom_append]

/-! ### Bytes below 128 -/

/-- A character below 128 is one byte. -/
theorem utf8EncodeChar_of_lt (h : c.toNat < 128) : String.utf8EncodeChar c = [c.toUInt8] :=
  String.utf8EncodeChar_eq_singleton
    (Char.utf8Size_eq_one_iff.mpr (UInt32.le_iff_toNat_le.mpr (Nat.le_of_lt_succ h)))

theorem utf8Size_of_lt (h : c.toNat < 128) : c.utf8Size = 1 := by
  rw [← String.length_utf8EncodeChar, utf8EncodeChar_of_lt h, List.length_singleton]

theorem toNat_toUInt8_of_lt (h : c.toNat < 128) : c.toUInt8.toNat = c.toNat := by
  show c.val.toUInt8.toNat = c.toNat
  rw [UInt32.toNat_toUInt8]
  exact Nat.mod_eq_of_lt (Nat.lt_trans h (by decide))

/-- The bytes of the other characters are not below 128. -/
theorem le_of_mem_utf8EncodeChar (h : 128 ≤ c.toNat) {b : UInt8}
    (hb : b ∈ String.utf8EncodeChar c) : 128 ≤ b.toNat := by
  have hlt : ¬ c.val.toNat ≤ 127 := Nat.not_le.mpr h
  have hmax : c.val.toNat < 1114112 := by
    rcases c.valid with hlow | ⟨-, hhigh⟩
    · exact Nat.lt_trans hlow (by decide)
    · exact hhigh
  unfold String.utf8EncodeChar at hb
  simp only [if_neg hlt] at hb
  split_ifs at hb <;> simp only [List.mem_cons, List.not_mem_nil, or_false] at hb
  · rcases hb with rfl | rfl <;> rw [UInt8.toNat_ofNat'] <;> omega
  · rcases hb with rfl | rfl | rfl <;> rw [UInt8.toNat_ofNat'] <;> omega
  · rcases hb with rfl | rfl | rfl | rfl <;> rw [UInt8.toNat_ofNat'] <;> omega

/-- A byte of a character is that of another one below 128 only when it is this character. -/
theorem eq_of_toUInt8_mem {d : Char} (hc : c.toNat < 128)
    (h : c.toUInt8 ∈ String.utf8EncodeChar d) : d = c := by
  have hbyte := toNat_toUInt8_of_lt hc
  by_cases hd : d.toNat < 128
  · rw [utf8EncodeChar_of_lt hd, List.mem_singleton] at h
    apply Char.toNat_inj.mp
    rw [← toNat_toUInt8_of_lt hd, ← h, hbyte]
  · have hle := le_of_mem_utf8EncodeChar (Nat.not_lt.mp hd) h
    omega

theorem toUInt8_inj_of_lt {d : Char} (hc : c.toNat < 128) (hd : d.toNat < 128) :
    c.toUInt8 = d.toUInt8 ↔ c = d := by
  constructor
  · intro h
    apply Char.toNat_inj.mp
    rw [← toNat_toUInt8_of_lt hc, h, toNat_toUInt8_of_lt hd]
  · exact congrArg _

/-- Where a byte below 128 stands, its character stands. -/
theorem exists_of_getElem?_asBytes (hc : c.toNat < 128)
    (h : (asBytes cs)[n]? = some c.toUInt8) :
    ∃ front back, cs = front ++ c :: back ∧ n = byteLength front := by
  induction cs generalizing n with
  | nil => simp at h
  | cons d cs ih =>
    have hsize := String.length_utf8EncodeChar d
    rw [asBytes_cons] at h
    by_cases hn : n < d.utf8Size
    · rw [List.getElem?_append_left (by omega)] at h
      obtain rfl := eq_of_toUInt8_mem hc (List.mem_of_getElem? h)
      rw [utf8Size_of_lt hc] at hn
      exact ⟨[], cs, rfl, by rw [byteLength_nil]; omega⟩
    · rw [List.getElem?_append_right (by omega), hsize] at h
      obtain ⟨front, back, rfl, hlength⟩ := ih h
      exact ⟨d :: front, back, rfl, by rw [byteLength_cons]; omega⟩

theorem toUInt8_mem_asBytes (hc : c.toNat < 128) : c.toUInt8 ∈ asBytes cs ↔ c ∈ cs := by
  constructor
  · intro h
    obtain ⟨n, hn⟩ := List.mem_iff_getElem?.mp h
    obtain ⟨front, back, rfl, -⟩ := exists_of_getElem?_asBytes hc hn
    simp
  · intro h
    apply List.mem_flatMap.mpr
    exact ⟨c, h, by rw [utf8EncodeChar_of_lt hc]; exact List.mem_singleton_self _⟩

end GraphLoom.Foundation
