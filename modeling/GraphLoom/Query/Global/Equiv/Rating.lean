import GraphLoom.Foundation.JsonText
import GraphLoom.Query.Drift.Primer
import Mathlib.Data.List.TakeWhile

/-!
# JSON objects in an answer

The scan over the bytes is one over the characters (`closingBrace_asBytes`), since the bytes it
looks for stand for characters of their own.  It finds the end of what begins with the outermost
open brace (`scanChars_of_closes`), and only that (`closes_of_scanChars`).

The repair by byte offsets comes to an end on every text and does what `repairText` does to its
characters (`repairJsonObject_eq`): its index is always between two characters.  What stands outside
of the literals is repaired piece by piece, and the literals are copied (`repairText_segments`).
-/

namespace GraphLoom.Query

open Foundation JsonText

variable {increment : ℕ → ℕ} {offset depth stop start : ℕ} {inString escaped : Bool}
  {cs front inner rest body : List Char} {c : Char}

/-! ### White space -/

theorem isWhiteSpace_of_isBlank (h : isBlank c = true) : isWhiteSpace c = true := by
  rcases isBlank_iff.mp h with rfl | rfl | rfl | rfl <;> decide

theorem isWhiteSpace_of_isAlphanum (h : c.isAlphanum = true) : isWhiteSpace c = false := by
  have hrange := isAlphanum_range h
  simp only [isWhiteSpace]
  simp
  omega

theorem isWhiteSpace_of_isScalarChar (h : isScalarChar c = true) : isWhiteSpace c = false := by
  simp only [isScalarChar, Bool.or_eq_true, beq_iff_eq] at h
  rcases h with ((halphanum | rfl) | rfl) | rfl
  · exact isWhiteSpace_of_isAlphanum halphanum
  · decide
  · decide
  · decide

/-! ### Characters -/

/-- The scan over the characters. -/
def scanChars (increment : ℕ → ℕ) :
    List Char → (offset depth : ℕ) → (inString escaped : Bool) → Option ℕ
  | [], _, _, _, _ => none
  | c :: cs, offset, depth, inString, escaped =>
    if inString then
      if escaped then scanChars increment cs (offset + c.utf8Size) depth true false
      else if c = '\\' then scanChars increment cs (offset + c.utf8Size) depth true true
      else if c = '"' then scanChars increment cs (offset + c.utf8Size) depth false false
      else scanChars increment cs (offset + c.utf8Size) depth true false
    else if c = '"' then scanChars increment cs (offset + c.utf8Size) depth true escaped
    else if c = '{' then
      scanChars increment cs (offset + c.utf8Size) (increment depth) false escaped
    else if c = '}' then
      if depth = 0 then none
      else if depth - 1 = 0 then some offset
      else scanChars increment cs (offset + c.utf8Size) (depth - 1) false escaped
    else scanChars increment cs (offset + c.utf8Size) depth false escaped

theorem byte_ne_of_le {byte : UInt8} (h : 128 ≤ byte.toNat) (hc : c.toNat < 128) :
    byte ≠ c.toUInt8 := by
  rintro rfl
  have hbyte := toNat_toUInt8_of_lt hc
  omega

/-- Bytes that stand for no characters of their own only move the scan on. -/
theorem closingBrace_high {high bytes : List UInt8} (hhigh : ∀ byte ∈ high, 128 ≤ byte.toNat)
    (hescaped : inString = true → escaped = false) :
    closingBrace increment (high ++ bytes) offset depth inString escaped =
      closingBrace increment bytes (offset + high.length) depth inString escaped := by
  induction high generalizing offset with
  | nil => rfl
  | cons byte high ih =>
    have hbyte : 128 ≤ byte.toNat := hhigh byte (List.mem_cons_self ..)
    have hrest : closingBrace increment (high ++ bytes) (offset + 1) depth inString escaped =
        closingBrace increment bytes (offset + 1 + high.length) depth inString escaped :=
      ih fun b hb => hhigh b (List.mem_cons_of_mem _ hb)
    have hquote : byte ≠ '"'.toUInt8 := byte_ne_of_le hbyte (by decide)
    have hslash : byte ≠ '\\'.toUInt8 := byte_ne_of_le hbyte (by decide)
    have hopen : byte ≠ '{'.toUInt8 := byte_ne_of_le hbyte (by decide)
    have hclose : byte ≠ '}'.toUInt8 := byte_ne_of_le hbyte (by decide)
    rw [List.cons_append, closingBrace, List.length_cons, Nat.add_comm high.length, ← Nat.add_assoc,
      ← hrest]
    cases inString with
    | false => simp [hquote, hopen, hclose]
    | true =>
      rw [hescaped rfl]
      simp [hquote, hslash]

/-- The scan over the bytes of a text is the scan over its characters. -/
theorem closingBrace_asBytes :
    closingBrace increment (asBytes cs) offset depth inString escaped =
      scanChars increment cs offset depth inString escaped := by
  induction cs generalizing offset depth inString escaped with
  | nil => rfl
  | cons c cs ih =>
    by_cases hc : c.toNat < 128
    · have hbyte {d : Char} (hd : d.toNat < 128) : c.toUInt8 = d.toUInt8 ↔ c = d :=
        toUInt8_inj_of_lt hc hd
      have hquote := hbyte (d := '"') (by decide)
      have hslash := hbyte (d := '\\') (by decide)
      have hopen := hbyte (d := '{') (by decide)
      have hclose := hbyte (d := '}') (by decide)
      rw [asBytes_cons, utf8EncodeChar_of_lt hc, List.singleton_append, closingBrace, scanChars,
        utf8Size_of_lt hc]
      simp only [hquote, hslash, hopen, hclose, ih]
    · -- the first byte ends an escape, and the others are like it
      have hle := Nat.not_lt.mp hc
      have hhigh : ∀ byte ∈ String.utf8EncodeChar c, 128 ≤ byte.toNat :=
        fun byte hbyte => le_of_mem_utf8EncodeChar hle hbyte
      have hne {d : Char} (hd : d.toNat < 128) : c ≠ d := by
        rintro rfl
        exact hc hd
      have hquote : c ≠ '"' := hne (by decide)
      have hslash : c ≠ '\\' := hne (by decide)
      have hopen : c ≠ '{' := hne (by decide)
      have hclose : c ≠ '}' := hne (by decide)
      rw [asBytes_cons, scanChars]
      by_cases hescape : inString = true ∧ escaped = true
      · obtain ⟨rfl, rfl⟩ := hescape
        have hne := @String.utf8EncodeChar_ne_nil c
        obtain ⟨byte, high, henc⟩ := List.exists_cons_of_ne_nil hne
        have hsize := String.length_utf8EncodeChar c
        rw [henc] at hhigh hsize ⊢
        rw [List.cons_append, closingBrace, if_pos rfl, if_pos rfl, if_pos rfl, if_pos rfl,
          closingBrace_high (fun b hb => hhigh b (List.mem_cons_of_mem _ hb)) (fun _ => rfl), ih,
          ← hsize, List.length_cons, Nat.add_comm high.length, Nat.add_assoc]
      · have hescaped : inString = true → escaped = false := by
          intro hin
          exact Bool.eq_false_iff.mpr fun he => hescape ⟨hin, he⟩
        rw [closingBrace_high hhigh hescaped, ih, String.length_utf8EncodeChar]
        cases inString with
        | false => simp [hquote, hopen, hclose]
        | true =>
          rw [hescaped rfl]
          simp [hquote, hslash]

/-- Two ways to add one to the depth are the same where they agree. -/
theorem closingBrace_congr {limit : ℕ} {bytes : List UInt8}
    (hincrement : ∀ n < limit, increment n = n + 1) (h : depth + bytes.length ≤ limit) :
    closingBrace increment bytes offset depth inString escaped =
      closingBrace (· + 1) bytes offset depth inString escaped := by
  induction bytes generalizing offset depth inString escaped with
  | nil => rfl
  | cons byte bytes ih =>
    rw [List.length_cons] at h
    have hadd : increment depth = depth + 1 := hincrement depth (by omega)
    have hrest (d : ℕ) (hd : d ≤ depth + 1) (inString escaped : Bool) :
        closingBrace increment bytes (offset + 1) d inString escaped =
          closingBrace (· + 1) bytes (offset + 1) d inString escaped := ih (by omega)
    rw [closingBrace, closingBrace, hadd, hrest (depth + 1) (by omega),
      hrest (depth - 1) (by omega)]
    simp only [hrest depth (by omega)]

/-! ### What the scan passes -/

theorem scanChars_plain (hquote : c ≠ '"') (hopen : c ≠ '{') (hclose : c ≠ '}') :
    scanChars (· + 1) (c :: cs) offset depth false false =
      scanChars (· + 1) cs (offset + c.utf8Size) depth false false := by
  simp [scanChars, hquote, hopen, hclose]

theorem scanChars_literalBody (h : LiteralBody body) :
    scanChars (· + 1) (body ++ '"' :: rest) offset depth true false =
      scanChars (· + 1) rest (offset + byteLength body + 1) depth false false := by
  induction h generalizing offset with
  | nil => rfl
  | plain hquote hslash _ ih =>
    rw [List.cons_append, scanChars, if_pos rfl, if_neg (by decide), if_neg hslash, if_neg hquote,
      ih, byteLength_cons, Nat.add_assoc offset]
  | @escape c body _ ih =>
    have hsize : '\\'.utf8Size = 1 := rfl
    rw [List.cons_append, List.cons_append, scanChars, if_pos rfl, if_neg (by decide), if_pos rfl,
      scanChars, if_pos rfl, if_pos rfl, ih, byteLength_cons, byteLength_cons, hsize,
      Nat.add_assoc offset, Nat.add_assoc offset, Nat.add_assoc 1]

theorem scanChars_literal (h : LiteralBody body) :
    scanChars (· + 1) (literal body ++ rest) offset depth false false =
      scanChars (· + 1) rest (offset + byteLength (literal body)) depth false false := by
  have hsize : '"'.utf8Size = 1 := rfl
  have hlength : byteLength (literal body) = byteLength body + 2 := by
    simp [literal, hsize]
    omega
  rw [literal_append, scanChars, if_neg (by decide), if_pos rfl, scanChars_literalBody h, hlength,
    hsize]
  congr 1
  omega

/-- The scan passes what has balanced braces. -/
theorem scanChars_braced (h : Braced inner) :
    scanChars (· + 1) (inner ++ rest) offset (depth + 1) false false =
      scanChars (· + 1) rest (offset + byteLength inner) (depth + 1) false false := by
  induction h generalizing offset depth rest with
  | nil => rfl
  | plain hquote hopen hclose _ ih =>
    rw [List.cons_append, scanChars_plain hquote hopen hclose, ih, byteLength_cons, Nat.add_assoc]
  | quoted hbody _ ih =>
    rw [List.append_assoc, scanChars_literal hbody, ih, byteLength_append, Nat.add_assoc]
  | @group inner tail _ _ ihInner ihTail =>
    have hopen : '{'.utf8Size = 1 := rfl
    have hclose : '}'.utf8Size = 1 := rfl
    rw [List.cons_append, List.append_assoc, List.cons_append, scanChars, if_neg (by decide),
      if_neg (by decide), if_pos rfl, ihInner, scanChars, if_neg (by decide), if_neg (by decide),
      if_neg (by decide), if_pos rfl, if_neg (by omega), if_neg (by omega), Nat.add_sub_cancel,
      ihTail]
    congr 1
    simp only [byteLength_cons, byteLength_append, hopen, hclose]
    omega

/-- The scan ends with the brace that closes the outermost open one. -/
theorem scanChars_of_closes (h : Closes depth front) :
    ∃ stop, scanChars (· + 1) (front ++ rest) offset depth false false = some stop ∧
      stop + 1 = offset + byteLength front := by
  have hclose : '}'.utf8Size = 1 := rfl
  induction h generalizing offset with
  | @last inner hinner =>
    refine ⟨offset + byteLength inner, ?_, ?_⟩
    · rw [List.append_assoc, scanChars_braced hinner, List.singleton_append, scanChars,
        if_neg (by decide), if_neg (by decide), if_neg (by decide), if_pos rfl, if_neg (by decide),
        if_pos rfl]
    · simp only [byteLength_append, byteLength_cons, byteLength_nil, hclose]
      omega
  | @next inner tail n hinner _ ih =>
    obtain ⟨stop, hscan, hstop⟩ := @ih (offset + byteLength inner + 1)
    refine ⟨stop, ?_, ?_⟩
    · rw [List.append_assoc, scanChars_braced hinner, List.cons_append, scanChars,
        if_neg (by decide), if_neg (by decide), if_neg (by decide), if_pos rfl, if_neg (by omega),
        if_neg (by omega), hclose]
      exact hscan
    · rw [hstop]
      simp only [byteLength_append, byteLength_cons, hclose]
      omega

/-! ### What the scan finds -/

/-- The scan has stopped at the brace that closes the outermost open one. -/
def Stopped (depth : ℕ) (cs : List Char) (offset stop : ℕ) : Prop :=
  ∃ front rest, cs = front ++ rest ∧ Closes depth front ∧ stop + 1 = offset + byteLength front

/-- The same in a literal. -/
def StoppedInString (depth : ℕ) (cs : List Char) (offset stop : ℕ) : Prop :=
  ∃ body tail, cs = body ++ '"' :: tail ∧ LiteralBody body ∧
    Stopped depth tail (offset + byteLength body + 1) stop

theorem Stopped.cons {depth' : ℕ}
    (hcloses : ∀ front, Closes depth front → Closes depth' (c :: front))
    (h : Stopped depth cs (offset + c.utf8Size) stop) : Stopped depth' (c :: cs) offset stop := by
  obtain ⟨front, rest, rfl, hfront, hstop⟩ := h
  exact ⟨c :: front, rest, rfl, hcloses front hfront, by rw [hstop, byteLength_cons, Nat.add_assoc]⟩

theorem Stopped.quote (h : StoppedInString depth cs (offset + 1) stop) :
    Stopped depth ('"' :: cs) offset stop := by
  have hsize : '"'.utf8Size = 1 := rfl
  obtain ⟨body, tail, rfl, hbody, front, rest, rfl, hfront, hstop⟩ := h
  refine ⟨literal body ++ front, rest, by simp [literal], hfront.append (.of_literal hbody), ?_⟩
  rw [hstop]
  simp only [literal, byteLength_append, byteLength_cons, byteLength_nil, hsize]
  omega

theorem StoppedInString.plain (hquote : c ≠ '"') (hslash : c ≠ '\\')
    (h : StoppedInString depth cs (offset + c.utf8Size) stop) :
    StoppedInString depth (c :: cs) offset stop := by
  obtain ⟨body, tail, rfl, hbody, hstopped⟩ := h
  refine ⟨c :: body, tail, rfl, .plain hquote hslash hbody, ?_⟩
  rw [byteLength_cons, ← Nat.add_assoc offset]
  exact hstopped

theorem StoppedInString.escape
    (h : StoppedInString depth cs (offset + 1 + c.utf8Size) stop) :
    StoppedInString depth ('\\' :: c :: cs) offset stop := by
  have hsize : '\\'.utf8Size = 1 := rfl
  obtain ⟨body, tail, rfl, hbody, hstopped⟩ := h
  refine ⟨'\\' :: c :: body, tail, rfl, .escape hbody, ?_⟩
  rw [byteLength_cons, byteLength_cons, hsize, ← Nat.add_assoc offset, ← Nat.add_assoc (offset + 1)]
  exact hstopped

/-- The scan stops at the brace that closes the outermost open one. -/
theorem stopped_of_scanChars :
    (scanChars (· + 1) cs offset (depth + 1) false false = some stop →
      Stopped (depth + 1) cs offset stop) ∧
    (scanChars (· + 1) cs offset (depth + 1) true false = some stop →
      StoppedInString (depth + 1) cs offset stop) ∧
    (scanChars (· + 1) cs offset (depth + 1) true true = some stop →
      ∃ c tail, cs = c :: tail ∧ StoppedInString (depth + 1) tail (offset + c.utf8Size) stop) := by
  induction cs generalizing offset depth with
  | nil => exact ⟨(fun h => nomatch h), (fun h => nomatch h), (fun h => nomatch h)⟩
  | cons c cs ih =>
    refine ⟨fun h => ?_, fun h => ?_, fun h => ?_⟩
    · -- outside of a string
      by_cases hquote : c = '"'
      · subst hquote
        exact .quote (ih.2.1 h)
      by_cases hopen : c = '{'
      · subst hopen
        exact (ih.1 h).cons fun _ hfront => hfront.opened
      by_cases hclose : c = '}'
      · subst hclose
        rw [scanChars, if_neg (by decide), if_neg (by decide), if_neg (by decide), if_pos rfl,
          if_neg (by omega), Nat.add_sub_cancel] at h
        split at h
        · next hzero =>
          obtain rfl := hzero
          obtain rfl := Option.some.inj h
          exact ⟨['}'], cs, rfl, .last .nil, rfl⟩
        · next hzero =>
          obtain ⟨depth, rfl⟩ := Nat.exists_eq_succ_of_ne_zero hzero
          exact (ih.1 h).cons fun _ hfront => hfront.closed
      · rw [scanChars_plain hquote hopen hclose] at h
        exact (ih.1 h).cons fun _ hfront => hfront.plain hquote hopen hclose
    · -- in a string
      by_cases hslash : c = '\\'
      · subst hslash
        obtain ⟨d, tail, rfl, hstopped⟩ := ih.2.2 h
        exact .escape hstopped
      by_cases hquote : c = '"'
      · subst hquote
        rw [scanChars, if_pos rfl, if_neg (by decide), if_neg (by decide), if_pos rfl] at h
        exact ⟨[], cs, rfl, .nil, ih.1 h⟩
      · rw [scanChars, if_pos rfl, if_neg (by decide), if_neg hslash, if_neg hquote] at h
        exact .plain hquote hslash (ih.2.1 h)
    · -- behind a backslash
      rw [scanChars, if_pos rfl, if_pos rfl] at h
      exact ⟨c, cs, rfl, ih.2.1 h⟩

/-! ### Candidates -/

theorem exists_of_mem_openingBraces {input : String} (h : start ∈ openingBraces input) :
    ∃ front rest, input.toList = front ++ '{' :: rest ∧ start = byteLength front := by
  obtain ⟨⟨byte, index⟩, hmem, hbyte⟩ := List.mem_filterMap.mp h
  have hget : (asBytes input.toList)[index]? = some byte := List.mem_zipIdx_iff_getElem?.mp hmem
  dsimp only at hbyte
  split at hbyte
  · next hopen =>
    obtain rfl := Option.some.inj hbyte
    rw [hopen] at hget
    exact exists_of_getElem?_asBytes (by decide) hget
  · exact nomatch hbyte

/-- The scan at a group gives the group. -/
theorem candidateAt_group {input : String} {object : List Char} (h : Group object)
    (hinput : input.toList = front ++ (object ++ rest)) :
    candidateAt (· + 1) input (byteLength front) = some (String.ofList object) := by
  obtain ⟨inner, hinner, rfl⟩ := h
  have hopen : '{'.utf8Size = 1 := rfl
  obtain ⟨stop, hscan, hstop⟩ : ∃ stop,
      scanChars (· + 1) ((inner ++ ['}']) ++ rest) 1 1 false false = some stop ∧
        stop + 1 = 1 + byteLength (inner ++ ['}']) := scanChars_of_closes (.last hinner)
  have hclosing : closingBrace (· + 1) ((asBytes input.toList).drop (byteLength front)) 0 0 false
      false = some stop := by
    rw [hinput, asBytes_append, ← length_asBytes front, List.drop_left, closingBrace_asBytes,
      List.cons_append, scanChars, if_neg (by decide), if_neg (by decide), if_pos rfl]
    exact hscan
  have hslice : byteSlice input.toList (byteLength front) (byteLength front + stop + 1) =
      some ('{' :: (inner ++ ['}'])) := by
    have hlength : byteLength front + stop + 1 =
        byteLength front + byteLength ('{' :: (inner ++ ['}'])) := by
      rw [byteLength_cons, hopen, ← hstop]
      omega
    rw [hinput, hlength, byteSlice_append]
  rw [candidateAt, hclosing, Option.bind_eq_bind, Option.bind_some, hslice]
  rfl

/-- What the scan gives at an opening brace is a group that begins there. -/
theorem group_of_candidateAt {input candidate : String}
    (hinput : input.toList = front ++ '{' :: rest)
    (h : candidateAt (· + 1) input (byteLength front) = some candidate) :
    ∃ back, input.toList = front ++ (candidate.toList ++ back) ∧ Group candidate.toList := by
  obtain ⟨stop, hclosing, hrest⟩ := Option.bind_eq_some_iff.mp h
  rw [hinput, asBytes_append, ← length_asBytes front, List.drop_left, closingBrace_asBytes,
    scanChars, if_neg (by decide), if_neg (by decide), if_pos rfl] at hclosing
  obtain ⟨inner, back, hsplit, hcloses, hstop⟩ := stopped_of_scanChars.1 hclosing
  have hgroup : Group ('{' :: inner) := hcloses.group
  have hwhole : input.toList = front ++ ('{' :: inner ++ back) := by rw [hinput, hsplit]; rfl
  have hsame := candidateAt_group hgroup hwhole
  rw [h] at hsame
  obtain rfl := Option.some.inj hsame
  rw [String.toList_ofList]
  exact ⟨back, hwhole, hgroup⟩

/-- The first opening brace. -/
theorem head?_openingBraces {input : String} (hfront : '{' ∉ front)
    (hinput : input.toList = front ++ '{' :: rest) :
    (openingBraces input).head? = some (byteLength front) := by
  rw [openingBraces, hinput, asBytes_append, List.zipIdx_append, List.filterMap_append,
    List.filterMap_eq_nil_iff.mpr, List.nil_append, asBytes_cons, utf8EncodeChar_of_lt (by decide),
    List.singleton_append, List.zipIdx_cons, List.filterMap_cons]
  · dsimp only
    rw [if_pos rfl, length_asBytes, Nat.zero_add]
    rfl
  · -- no byte of the front is the brace
    rintro ⟨byte, index⟩ hmem
    apply if_neg
    rintro rfl
    exact hfront ((toUInt8_mem_asBytes (by decide)).mp (List.fst_mem_of_mem_zipIdx hmem))

/-- A group behind prose without braces is the first candidate. -/
theorem head?_jsonObjectCandidates {prose object suffix : String} (hprose : '{' ∉ prose.toList)
    (hobject : Group object.toList) :
    (Global.jsonObjectCandidates (prose ++ object ++ suffix)).head? = some object := by
  have hinput : (prose ++ object ++ suffix).toList =
      prose.toList ++ (object.toList ++ suffix.toList) := by
    rw [String.toList_append, String.toList_append, List.append_assoc]
  have hcandidate := candidateAt_group hobject hinput
  obtain ⟨inner, -, hinner⟩ := hobject
  have hopen : (prose ++ object ++ suffix).toList =
      prose.toList ++ '{' :: (inner ++ ['}'] ++ suffix.toList) := by
    rw [hinput, hinner]
    rfl
  obtain ⟨others, hothers⟩ := List.head?_eq_some_iff.mp (head?_openingBraces hprose hopen)
  rw [Global.jsonObjectCandidates, objectCandidates, hothers,
    List.filterMap_cons_some hcandidate, String.ofList_toList]
  rfl

/-- Each candidate is a group, between two other texts. -/
theorem group_of_mem_jsonObjectCandidates {input candidate : String}
    (h : candidate ∈ Global.jsonObjectCandidates input) :
    ∃ before after, input = before ++ candidate ++ after ∧ Group candidate.toList := by
  obtain ⟨start, hstart, hcandidate⟩ := List.mem_filterMap.mp h
  obtain ⟨front, rest, hinput, rfl⟩ := exists_of_mem_openingBraces hstart
  obtain ⟨back, hsplit, hgroup⟩ := group_of_candidateAt hinput hcandidate
  refine ⟨String.ofList front, String.ofList back, ?_, hgroup⟩
  rw [← String.toList_inj, hsplit]
  simp only [String.toList_append, String.toList_ofList, List.append_assoc]

/-- Saturation is out of reach of a text, and the two copies of the scan agree. -/
theorem jsonCandidates_eq {input : String} (h : byteLength input.toList ≤ usizeMax) :
    Drift.jsonCandidates input = Global.jsonObjectCandidates input := by
  have hincrement : ∀ n < usizeMax, usizeAdd n 1 = n + 1 := fun n hn => Nat.min_eq_right hn
  apply List.filterMap_congr
  intro start _
  have hlength : 0 + ((asBytes input.toList).drop start).length ≤ usizeMax := by
    rw [List.length_drop, length_asBytes]
    omega
  rw [candidateAt, candidateAt, closingBrace_congr hincrement hlength]

/-- **The scanners find the object that is there.**  `fromStr` is `serde_json::from_str`, and every
text has at most `usize::MAX` bytes. -/
theorem candidates_correct (fromStr : String → Option Json.Value) (input : String)
    (hsize : byteLength input.toList ≤ usizeMax) :
    (∀ prose object suffix : String, input = prose ++ object ++ suffix → '{' ∉ prose.toList →
      ObjectText false object.toList →
      (Global.jsonObjectCandidates input).head? = some object ∧
      (Drift.jsonCandidates input).head? = some object ∧
      ((fromStr object).isSome → Global.firstJsonObject fromStr input = some object)) ∧
    (∀ candidate, candidate ∈ Global.jsonObjectCandidates input ∨
        candidate ∈ Drift.jsonCandidates input →
      ∃ before after, input = before ++ candidate ++ after ∧ Group candidate.toList) ∧
    Drift.jsonCandidates input = Global.jsonObjectCandidates input := by
  rw [jsonCandidates_eq hsize]
  refine ⟨fun prose object suffix hinput hprose hobject => ?_, fun candidate h => ?_, rfl⟩
  · have hhead := @head?_jsonObjectCandidates prose object suffix hprose hobject.group
    rw [← hinput] at hhead
    refine ⟨hhead, hhead, fun hread => ?_⟩
    obtain ⟨others, hothers⟩ := List.head?_eq_some_iff.mp hhead
    rw [Global.firstJsonObject, hothers]
    exact List.find?_cons_of_pos hread
  · exact group_of_mem_jsonObjectCandidates (or_self_iff.mp h)

/-! ### An object with a brace in a string -/

def noteObject : String := "\x7b\"é\":\"\x7d\"\x7d"

def noteInput : String := "Note: " ++ noteObject ++ " and \x7b"

def noteFromStr (text : String) : Option Json.Value :=
  if text = noteObject then some (.object [("é", .string "\x7d")]) else none

theorem noteObject_objectText : ObjectText false noteObject.toList := by
  have hkey : StringText false (literal ['é']) :=
    ⟨['é'], .inl (.unescaped (by decide) (by decide) (by decide) .nil), rfl⟩
  have hvalue : StringText false (literal ['}']) :=
    ⟨['}'], .inl (.unescaped (by decide) (by decide) (by decide) .nil), rfl⟩
  have hblank : Blank [] := fun _ hc => nomatch hc
  exact ⟨_, .inr (.last (.member hblank (.inl hkey) hblank hblank (.string hvalue) hblank)), rfl⟩

theorem candidates_correct_note :
    (Drift.jsonCandidates noteInput).head? = some noteObject ∧
      Global.firstJsonObject noteFromStr noteInput = some noteObject := by
  have hsize : byteLength noteInput.toList ≤ usizeMax := by decide +kernel
  have hprose : '{' ∉ "Note: ".toList := by decide
  have hfound := (candidates_correct noteFromStr noteInput hsize).1 "Note: " noteObject
    " and \x7b" rfl hprose noteObject_objectText
  exact ⟨hfound.2.1, hfound.2.2 (by decide +kernel)⟩

end GraphLoom.Query

/-! ## The repair of a JSON object -/

namespace GraphLoom.Query.Global

open Foundation JsonText

variable {p : Char → Bool} {front text rest body : List Char} {c delimiter : Char} {fuel : ℕ}
  {escaped : Bool}

/-! ### The repair of characters -/

/-- A literal behind its opening quote, and what follows it. -/
def splitLiteral : Bool → List Char → List Char × List Char
  | _, [] => ([], [])
  | escaped, c :: text =>
    if escaped = false ∧ c = '"' then ([c], text)
    else
      let halves := splitLiteral (escaped = false ∧ c = '\\') text
      (c :: halves.1, halves.2)

structure RepairedHead where
  consumed : List Char
  pushed : List Char
  rest : List Char

/-- What comes of a brace or a comma with the text behind it. -/
def repairHead (delimiter : Char) (text : List Char) : RepairedHead :=
  let whitespace := text.takeWhile isWhiteSpace
  let fromKey := text.dropWhile isWhiteSpace
  let key := fromKey.takeWhile isKeyChar
  let behindKey := fromKey.dropWhile isKeyChar
  let gap := behindKey.takeWhile isWhiteSpace
  let behindGap := behindKey.dropWhile isWhiteSpace
  if delimiter = ',' ∧ (fromKey.head? = some '}' ∨ fromKey.head? = some ']') then
    ⟨whitespace, whitespace, fromKey⟩
  else if key ≠ [] ∧ behindGap.head? = some ':' then
    ⟨whitespace ++ (key ++ (gap ++ [':'])),
      delimiter :: (whitespace ++ ('"' :: (key ++ ('"' :: (gap ++ [':']))))), behindGap.tail⟩
  else
    ⟨whitespace ++ (key ++ gap), delimiter :: (whitespace ++ (key ++ gap)), behindGap⟩

theorem splitLiteral_append (escaped : Bool) (text : List Char) :
    (splitLiteral escaped text).1 ++ (splitLiteral escaped text).2 = text := by
  induction text generalizing escaped with
  | nil => rfl
  | cons c text ih =>
    rw [splitLiteral]
    split
    · rfl
    · exact congrArg (c :: ·) (ih _)

/-- The head is what it has consumed and the rest. -/
theorem repairHead_append (delimiter : Char) (text : List Char) :
    (repairHead delimiter text).consumed ++ (repairHead delimiter text).rest = text := by
  have hfirst := List.takeWhile_append_dropWhile (p := isWhiteSpace) (l := text)
  have hkey := List.takeWhile_append_dropWhile (p := isKeyChar) (l := text.dropWhile isWhiteSpace)
  have hgap := List.takeWhile_append_dropWhile (p := isWhiteSpace)
    (l := (text.dropWhile isWhiteSpace).dropWhile isKeyChar)
  unfold repairHead
  dsimp only
  split
  · exact hfirst
  · split
    · next hcolon =>
      obtain ⟨tail, htail⟩ := List.head?_eq_some_iff.mp hcolon.2
      rw [htail] at hgap
      rw [htail, List.tail_cons, List.append_assoc, List.append_assoc, List.append_assoc,
        List.singleton_append, hgap, hkey, hfirst]
    · rw [List.append_assoc, List.append_assoc, hgap, hkey, hfirst]

theorem length_repairHead (delimiter : Char) (text : List Char) :
    (repairHead delimiter text).rest.length ≤ text.length := by
  have hsplit := congrArg List.length (repairHead_append delimiter text)
  rw [List.length_append] at hsplit
  omega

theorem length_splitLiteral (escaped : Bool) (text : List Char) :
    (splitLiteral escaped text).2.length ≤ text.length := by
  have hsplit := congrArg List.length (splitLiteral_append escaped text)
  rw [List.length_append] at hsplit
  omega

/-- The repair of a text. -/
def repairText : List Char → List Char
  | [] => []
  | c :: text =>
    if c = '"' then c :: ((splitLiteral false text).1 ++ repairText (splitLiteral false text).2)
    else if c = '{' ∨ c = ',' then (repairHead c text).pushed ++ repairText (repairHead c text).rest
    else c :: repairText text
termination_by text => text.length
decreasing_by
  · exact Nat.lt_succ_of_le (length_splitLiteral false text)
  · exact Nat.lt_succ_of_le (length_repairHead c text)
  · exact Nat.lt_succ_self text.length

/-! ### The index -/

theorem nextChar_append : nextChar (front ++ text) (byteLength front) = some text.head? := by
  rw [nextChar, sliceFrom_append]
  rfl

theorem skipWhile_append (h : text.length < fuel) :
    skipWhile p (front ++ text) fuel (byteLength front) =
      some (byteLength front + byteLength (text.takeWhile p)) := by
  induction fuel generalizing front text with
  | zero => exact absurd h (Nat.not_lt_zero _)
  | succ fuel ih =>
    rw [skipWhile, nextChar_append, Option.bind_eq_bind, Option.bind_some]
    cases text with
    | nil => rfl
    | cons c text =>
      by_cases hc : p c = true
      · have hrest := @ih (front ++ [c]) text (Nat.lt_of_succ_lt_succ h)
        rw [List.append_assoc, List.singleton_append, byteLength_append, byteLength_cons,
          byteLength_nil, Nat.add_zero] at hrest
        rw [List.head?_cons]
        dsimp only
        rw [if_pos hc, hrest, List.takeWhile_cons_of_pos hc, byteLength_cons, Nat.add_assoc]
      · rw [List.head?_cons]
        dsimp only
        rw [if_neg hc, List.takeWhile_cons_of_neg hc]
        rfl

theorem skipString_append (h : text.length < fuel) :
    skipString (front ++ text) fuel (byteLength front) escaped =
      some (byteLength front + byteLength (splitLiteral escaped text).1) := by
  induction fuel generalizing front text escaped with
  | zero => exact absurd h (Nat.not_lt_zero _)
  | succ fuel ih =>
    rw [skipString, byteLength_append, nextChar_append, Option.bind_eq_bind, Option.bind_some]
    cases text with
    | nil => rw [byteLength_nil, if_neg (by omega)]; rfl
    | cons c text =>
      have hpos : 0 < c.utf8Size := Char.utf8Size_pos c
      have hrest (escaped : Bool) :
          skipString (front ++ c :: text) fuel (byteLength front + c.utf8Size) escaped =
            some (byteLength front + (c.utf8Size + byteLength (splitLiteral escaped text).1)) := by
        have hnext := @ih (front ++ [c]) text escaped (Nat.lt_of_succ_lt_succ h)
        rw [List.append_assoc, List.singleton_append, byteLength_append, byteLength_cons,
          byteLength_nil, Nat.add_zero] at hnext
        rw [hnext, Nat.add_assoc]
      rw [byteLength_cons, if_pos (by omega), List.head?_cons]
      dsimp only
      rw [splitLiteral, hrest, hrest]
      cases escaped with
      | true => simp
      | false =>
        by_cases hslash : c = '\\'
        · subst hslash
          simp
        · by_cases hquote : c = '"'
          · simp [hquote]
          · simp [hquote, hslash]

section Steps

variable {input : List Char} {index : ℕ}

/-- Each text has fewer characters than the fuel, which is its bytes and one more. -/
theorem length_lt_fuel (hinput : input = front ++ text) : text.length < byteLength input + 1 := by
  have hlength := length_le_byteLength text
  rw [hinput, byteLength_append]
  omega

theorem nextChar_at (hinput : input = front ++ text) (hindex : index = byteLength front) :
    nextChar input index = some text.head? := by
  rw [hinput, hindex, nextChar_append]

theorem byteSlice_at {inner : List Char} (hinput : input = front ++ (inner ++ rest))
    (hindex : index = byteLength front) :
    byteSlice input index (index + byteLength inner) = some inner := by
  rw [hinput, hindex, byteSlice_append]

theorem skipWhile_at (hinput : input = front ++ text) (hindex : index = byteLength front) :
    skipWhile p input (byteLength input + 1) index =
      some (index + byteLength (text.takeWhile p)) := by
  have hfuel := length_lt_fuel hinput
  generalize byteLength input + 1 = fuel at hfuel ⊢
  rw [hinput, hindex, skipWhile_append hfuel]

theorem skipString_at (hinput : input = front ++ text) (hindex : index = byteLength front) :
    skipString input (byteLength input + 1) index escaped =
      some (index + byteLength (splitLiteral escaped text).1) := by
  have hfuel := length_lt_fuel hinput
  generalize byteLength input + 1 = fuel at hfuel ⊢
  rw [hinput, hindex, skipString_append hfuel]

theorem repairString_at (hinput : input = front ++ '"' :: text)
    (hindex : index = byteLength front) :
    repairString input index = some (index + byteLength ('"' :: (splitLiteral false text).1),
      '"' :: (splitLiteral false text).1) := by
  have hsplit := splitLiteral_append false text
  have hskip := @skipString_at (front ++ ['"']) text false input (index + '"'.utf8Size)
    (by rw [hinput]; simp) (by rw [hindex]; simp)
  have hslice := @byteSlice_at front (splitLiteral false text).2 input index
    ('"' :: (splitLiteral false text).1) (by rw [hinput, List.cons_append, hsplit]) hindex
  rw [repairString, hskip, Option.bind_eq_bind, Option.bind_some, Nat.add_assoc, ← byteLength_cons,
    hslice]
  rfl

theorem repairDelimiter_at (hinput : input = front ++ delimiter :: text)
    (hindex : index = byteLength front) :
    repairDelimiter input delimiter index =
      some (index + byteLength (delimiter :: (repairHead delimiter text).consumed),
        (repairHead delimiter text).pushed) := by
  have hfirst := List.takeWhile_append_dropWhile (p := isWhiteSpace) (l := text)
  have hkey := List.takeWhile_append_dropWhile (p := isKeyChar) (l := text.dropWhile isWhiteSpace)
  have hgap := List.takeWhile_append_dropWhile (p := isWhiteSpace)
    (l := (text.dropWhile isWhiteSpace).dropWhile isKeyChar)
  set whitespace := text.takeWhile isWhiteSpace with hwhitespace
  set fromKey := text.dropWhile isWhiteSpace with hfromKey
  set key := fromKey.takeWhile isKeyChar with hkeyDef
  set behindKey := fromKey.dropWhile isKeyChar with hbehindKey
  set gap := behindKey.takeWhile isWhiteSpace with hgapDef
  set behindGap := behindKey.dropWhile isWhiteSpace with hbehindGap
  -- the text from each of the four offsets on
  have hfromText : input = (front ++ [delimiter]) ++ text := by rw [hinput]; simp
  have hfromKeyText : input = (front ++ delimiter :: whitespace) ++ fromKey := by
    rw [hinput, ← hfirst]; simp
  have hbehindKeyText : input = (front ++ delimiter :: (whitespace ++ key)) ++ behindKey := by
    rw [hfromKeyText, ← hkey]; simp
  have hbehindGapText :
      input = (front ++ delimiter :: (whitespace ++ (key ++ gap))) ++ behindGap := by
    rw [hbehindKeyText, ← hgap]; simp
  -- the offsets
  have hafter : index + delimiter.utf8Size = byteLength (front ++ [delimiter]) := by
    rw [hindex]; simp
  have hkeyStart : index + delimiter.utf8Size + byteLength whitespace =
      byteLength (front ++ delimiter :: whitespace) := by rw [hindex]; simp [Nat.add_assoc]
  have hkeyEnd : index + delimiter.utf8Size + byteLength whitespace + byteLength key =
      byteLength (front ++ delimiter :: (whitespace ++ key)) := by
    rw [hindex]; simp [Nat.add_assoc]
  have hgapEnd : index + delimiter.utf8Size + byteLength whitespace + byteLength key +
      byteLength gap = byteLength (front ++ delimiter :: (whitespace ++ (key ++ gap))) := by
    rw [hindex]; simp [Nat.add_assoc]
  have hwhitespaceSlice := @byteSlice_at (front ++ [delimiter]) fromKey input _ whitespace
    (by rw [hfromText, hfirst]) hafter
  have hkeySlice := @byteSlice_at (front ++ delimiter :: whitespace) behindKey input _ key
    (by rw [hfromKeyText, hkey]) hkeyStart
  have hgapSlice := @byteSlice_at (front ++ delimiter :: (whitespace ++ key)) behindGap input _ gap
    (by rw [hbehindKeyText, hgap]) hkeyEnd
  have hbothSlice := @byteSlice_at (front ++ delimiter :: whitespace) behindGap input _ (key ++ gap)
    (by rw [hfromKeyText, ← hkey, ← hgap, List.append_assoc key]) hkeyStart
  rw [byteLength_append, ← Nat.add_assoc] at hbothSlice
  have hlt : index + delimiter.utf8Size + byteLength whitespace <
      index + delimiter.utf8Size + byteLength whitespace + byteLength key ↔ key ≠ [] := by
    cases key with
    | nil => simp
    | cons c key =>
      have hpos := Char.utf8Size_pos c
      simp
      omega
  simp only [repairDelimiter, skipWhile_at hfromText hafter, skipWhile_at hfromKeyText hkeyStart,
    skipWhile_at hbehindKeyText hkeyEnd, nextChar_at hfromKeyText hkeyStart,
    nextChar_at hbehindGapText hgapEnd, ← hwhitespace, ← hkeyDef, ← hgapDef, hwhitespaceSlice,
    hkeySlice, hgapSlice, hbothSlice, hlt, Option.bind_eq_bind, Option.bind_some, repairHead,
    ← hfromKey, ← hbehindKey, ← hbehindGap]
  have hcolon : ':'.utf8Size = 1 := rfl
  split_ifs
  · exact congrArg some (Prod.ext (by simp [Nat.add_assoc]) rfl)
  · exact congrArg some (Prod.ext (by simp [Nat.add_assoc, hcolon]) (by simp))
  · exact congrArg some (Prod.ext (by simp [Nat.add_assoc]) (by simp))

/-- The loop repairs what lies behind its index. -/
theorem repairFrom_at (repaired : List Char) (hinput : input = front ++ text)
    (hindex : index = byteLength front) (hfuel : text.length < fuel) :
    repairFrom input fuel index repaired = some (repaired ++ repairText text) := by
  induction fuel generalizing front text index repaired with
  | zero => exact absurd hfuel (Nat.not_lt_zero _)
  | succ fuel ih =>
    have hlength : byteLength input = index + byteLength text := by
      rw [hinput, hindex, byteLength_append]
    rw [repairFrom, hlength, nextChar_at hinput hindex]
    cases text with
    | nil =>
      rw [byteLength_nil, if_neg (by omega), repairText, List.append_nil]
    | cons c text =>
      have hpos := Char.utf8Size_pos c
      rw [byteLength_cons, if_pos (by omega), List.head?_cons, Option.bind_eq_bind,
        Option.bind_some, repairText]
      dsimp only
      rw [List.length_cons] at hfuel
      by_cases hquote : c = '"'
      · subst hquote
        have hsplit := splitLiteral_append false text
        have hrest := length_splitLiteral false text
        rw [if_pos rfl, if_pos rfl, repairString_at hinput hindex, Option.bind_eq_bind,
          Option.bind_some]
        dsimp only
        rw [@ih (front ++ '"' :: (splitLiteral false text).1) (splitLiteral false text).2 _ _
          (by rw [hinput, List.append_assoc, List.cons_append, hsplit])
          (by rw [hindex, byteLength_append]) (by omega), List.append_assoc, List.cons_append]
      · rw [if_neg hquote, if_neg hquote]
        by_cases hdelimiter : c = '{' ∨ c = ','
        · have hsplit := repairHead_append c text
          have hrest := length_repairHead c text
          rw [if_pos hdelimiter, if_pos hdelimiter, repairDelimiter_at hinput hindex,
            Option.bind_eq_bind, Option.bind_some]
          dsimp only
          rw [@ih (front ++ c :: (repairHead c text).consumed) (repairHead c text).rest _ _
            (by rw [hinput, List.append_assoc, List.cons_append, hsplit])
            (by rw [hindex, byteLength_append]) (by omega), List.append_assoc]
        · rw [if_neg hdelimiter, if_neg hdelimiter, @ih (front ++ [c]) text _ _
            (by rw [hinput]; simp) (by rw [hindex]; simp) (by omega), List.append_assoc]
          rfl

end Steps

/-- The repair of a text ends, without a slice inside of a character. -/
theorem repairJsonObject_eq (input : String) :
    repairJsonObject input = some (String.ofList (repairText input.toList)) := by
  have hfuel := @length_lt_fuel [] input.toList input.toList rfl
  have hloop := @repairFrom_at [] input.toList _ input.toList 0 [] rfl rfl hfuel
  rw [repairJsonObject, hloop]
  rfl

/-! ### Segments -/

theorem takeWhile_append_quote (hp : p '"' = false) (text rest : List Char) :
    (text ++ '"' :: rest).takeWhile p = text.takeWhile p ∧
      (text ++ '"' :: rest).dropWhile p = text.dropWhile p ++ '"' :: rest := by
  induction text with
  | nil => simp [hp]
  | cons c text ih =>
    by_cases hc : p c = true
    · simp [hc, ih]
    · simp [hc]

theorem head?_append_quote (h : c ≠ '"') (text rest : List Char) :
    (text ++ '"' :: rest).head? = some c ↔ text.head? = some c := by
  cases text with
  | nil => simp [h.symm]
  | cons d text => rfl

/-- What a brace or a comma comes to is decided before the next quote. -/
theorem repairHead_append_quote (delimiter : Char) (text rest : List Char) :
    (repairHead delimiter (text ++ '"' :: rest)).pushed = (repairHead delimiter text).pushed ∧
      (repairHead delimiter (text ++ '"' :: rest)).rest =
        (repairHead delimiter text).rest ++ '"' :: rest := by
  have hspace (text : List Char) :=
    takeWhile_append_quote (show isWhiteSpace '"' = false by decide) text rest
  have hkey (text : List Char) :=
    takeWhile_append_quote (show isKeyChar '"' = false by decide) text rest
  unfold repairHead
  simp only [(hspace _).1, (hspace _).2, (hkey _).1, (hkey _).2,
    head?_append_quote (show '}' ≠ '"' by decide), head?_append_quote (show ']' ≠ '"' by decide),
    head?_append_quote (show ':' ≠ '"' by decide)]
  split
  · exact ⟨rfl, rfl⟩
  · split
    · next hcolon =>
      obtain ⟨tail, htail⟩ := List.head?_eq_some_iff.mp hcolon.2
      rw [htail]
      exact ⟨rfl, rfl⟩
    · exact ⟨rfl, rfl⟩

/-- What stands before a quote is repaired on its own. -/
theorem repairText_append_quote (h : '"' ∉ text) (rest : List Char) :
    repairText (text ++ '"' :: rest) = repairText text ++ repairText ('"' :: rest) := by
  induction hlength : text.length using Nat.strong_induction_on generalizing text with
  | _ n ih =>
    subst hlength
    cases text with
    | nil => rw [List.nil_append, repairText.eq_1, List.nil_append]
    | cons c text =>
      have hc : c ≠ '"' := fun hc => h (by rw [hc]; exact List.mem_cons_self ..)
      have htext : '"' ∉ text := fun hmem => h (List.mem_cons_of_mem c hmem)
      rw [List.cons_append, repairText, repairText.eq_2 c text, if_neg hc, if_neg hc]
      by_cases hdelimiter : c = '{' ∨ c = ','
      · have hlength := length_repairHead c text
        have hrest : '"' ∉ (repairHead c text).rest := by
          intro hmem
          apply htext
          rw [← repairHead_append c text]
          exact List.mem_append_right _ hmem
        obtain ⟨hpushed, htail⟩ := repairHead_append_quote c text rest
        rw [if_pos hdelimiter, if_pos hdelimiter, hpushed, htail,
          ih _ (Nat.lt_succ_of_le hlength) hrest rfl, List.append_assoc]
      · rw [if_neg hdelimiter, if_neg hdelimiter, ih _ (Nat.lt_succ_self _) htext rfl,
          List.cons_append]

theorem splitLiteral_closed (h : LiteralBody body) (rest : List Char) :
    splitLiteral false (body ++ '"' :: rest) = (body ++ ['"'], rest) := by
  induction h with
  | nil => rfl
  | plain hquote hslash _ ih => simp [splitLiteral, hquote, hslash, ih]
  | escape _ ih => simp [splitLiteral, ih]

variable {tail : List Char}

/-- Without its closing quote the literal goes on to the end. -/
theorem splitLiteral_unclosed (h : LiteralBody body) (htail : tail = [] ∨ tail = ['\\']) :
    splitLiteral false (body ++ tail) = (body ++ tail, []) := by
  induction h with
  | nil => rcases htail with rfl | rfl <;> rfl
  | plain hquote hslash _ ih => simp [splitLiteral, hquote, hslash, ih]
  | escape _ ih => simp [splitLiteral, ih]

theorem repairText_literal (h : LiteralBody body) (rest : List Char) :
    repairText (literal body ++ rest) = literal body ++ repairText rest := by
  rw [literal_append, repairText, if_pos rfl, splitLiteral_closed h, literal_append,
    List.append_assoc, List.singleton_append]

theorem repairText_unclosed (h : LiteralBody body) (htail : tail = [] ∨ tail = ['\\']) :
    repairText ('"' :: (body ++ tail)) = '"' :: (body ++ tail) := by
  rw [repairText, if_pos rfl, splitLiteral_unclosed h htail, repairText, List.append_nil]

/-- What stands outside of the literals is repaired, and the literals stay. -/
def repairSegment : Segment → List Char
  | .outside text => repairText text
  | .literal text => text

theorem repairText_segments {segments : List Segment} (h : Segments text segments) :
    repairText text = segments.flatMap repairSegment := by
  induction h with
  | outside => exact (List.append_nil _).symm
  | @closed text body rest segments hquote hbody _ ih =>
    rw [literal_append, repairText_append_quote hquote, ← literal_append,
      repairText_literal hbody, ih]
    rfl
  | @unclosed text body hquote hbody =>
    have hunclosed := repairText_unclosed hbody (.inl rfl)
    rw [List.append_nil] at hunclosed
    rw [repairText_append_quote hquote, hunclosed]
    simp [repairSegment]
  | escaping hquote hbody =>
    rw [repairText_append_quote hquote, repairText_unclosed hbody (.inr rfl)]
    simp [repairSegment]

/-! ### JSON texts -/

/-- What a key may stand in, with the white space around it. -/
def isKeySpace (c : Char) : Bool := isWhiteSpace c || isKeyChar c

/-- No key is followed by a colon. -/
def NoBareKey (text : List Char) : Prop := (text.dropWhile isKeySpace).head? ≠ some ':'

/-- A closing bracket does not come next. -/
def NoClosing (text : List Char) : Prop :=
  (text.dropWhile isWhiteSpace).head? ≠ some '}' ∧ (text.dropWhile isWhiteSpace).head? ≠ some ']'

theorem NoBareKey.append (htext : ∀ c ∈ text, c ≠ ':') (h : NoBareKey rest) :
    NoBareKey (text ++ rest) := by
  induction text with
  | nil => exact h
  | cons c text ih =>
    have hne : c ≠ ':' := htext c (List.mem_cons_self ..)
    by_cases hc : isKeySpace c = true
    · show (List.dropWhile _ (c :: (text ++ rest))).head? ≠ some ':'
      rw [List.dropWhile_cons_of_pos hc]
      exact ih fun d hd => htext d (List.mem_cons_of_mem _ hd)
    · show (List.dropWhile _ (c :: (text ++ rest))).head? ≠ some ':'
      rw [List.dropWhile_cons_of_neg hc]
      simpa using hne

theorem NoBareKey.cons (hc : isKeySpace c = false) (hne : c ≠ ':') : NoBareKey (c :: text) := by
  unfold NoBareKey
  rw [List.dropWhile_cons_of_neg (by simp [hc])]
  simpa using hne

theorem NoClosing.cons (hc : isWhiteSpace c = false) (hbrace : c ≠ '}') (hbracket : c ≠ ']') :
    NoClosing (c :: text) := by
  unfold NoClosing
  rw [List.dropWhile_cons_of_neg (by simp [hc])]
  simpa using ⟨hbrace, hbracket⟩

theorem NoClosing.blank_append (hblank : Blank text) (h : NoClosing rest) :
    NoClosing (text ++ rest) := by
  have hspace : ∀ c ∈ text, isWhiteSpace c = true :=
    fun c hc => isWhiteSpace_of_isBlank (hblank c hc)
  unfold NoClosing
  rw [List.dropWhile_append_of_pos hspace]
  exact h

theorem ne_colon_of_blank (h : Blank text) : ∀ c ∈ text, c ≠ ':' := by
  rintro c hc rfl
  exact absurd (h _ hc) (by decide)

/-- Characters that begin neither a literal nor a repair stay. -/
theorem repairText_plain (h : ∀ c ∈ text, c ≠ '"' ∧ c ≠ '{' ∧ c ≠ ',') (rest : List Char) :
    repairText (text ++ rest) = text ++ repairText rest := by
  induction text with
  | nil => rfl
  | cons c text ih =>
    obtain ⟨hquote, hopen, hcomma⟩ := h c (List.mem_cons_self ..)
    rw [List.cons_append, repairText, if_neg hquote, if_neg (by simp [hopen, hcomma]),
      ih fun d hd => h d (List.mem_cons_of_mem _ hd), List.cons_append]

theorem ne_of_isKeySpace (h : isKeySpace c = true) : c ≠ '"' ∧ c ≠ '{' ∧ c ≠ ',' := by
  refine ⟨?_, ?_, ?_⟩ <;> rintro rfl <;> exact absurd h (by decide)

/-- Where there is nothing to repair, a key and the white space around it are passed. -/
theorem repairHead_kept (hkey : NoBareKey text) (hclosing : delimiter = ',' → NoClosing text) :
    (repairHead delimiter text).pushed = delimiter :: (repairHead delimiter text).consumed ∧
      ∀ c ∈ (repairHead delimiter text).consumed, isKeySpace c = true := by
  have hfirst := List.takeWhile_append_dropWhile (p := isWhiteSpace) (l := text)
  have hsecond := List.takeWhile_append_dropWhile (p := isKeyChar)
    (l := text.dropWhile isWhiteSpace)
  have hthird := List.takeWhile_append_dropWhile (p := isWhiteSpace)
    (l := (text.dropWhile isWhiteSpace).dropWhile isKeyChar)
  have hpassed : ∀ c ∈ text.takeWhile isWhiteSpace ++
      ((text.dropWhile isWhiteSpace).takeWhile isKeyChar ++
        ((text.dropWhile isWhiteSpace).dropWhile isKeyChar).takeWhile isWhiteSpace),
      isKeySpace c = true := by
    intro c hc
    rw [isKeySpace, Bool.or_eq_true]
    simp only [List.mem_append] at hc
    rcases hc with hc | hc | hc
    · exact .inl (List.mem_takeWhile_imp hc)
    · exact .inr (List.mem_takeWhile_imp hc)
    · exact .inl (List.mem_takeWhile_imp hc)
  have hnoClosing : ¬ (delimiter = ',' ∧ ((text.dropWhile isWhiteSpace).head? = some '}' ∨
      (text.dropWhile isWhiteSpace).head? = some ']')) := by
    rintro ⟨hcomma, hhead⟩
    exact hhead.elim (hclosing hcomma).1 (hclosing hcomma).2
  have hnoColon : (((text.dropWhile isWhiteSpace).dropWhile isKeyChar).dropWhile
      isWhiteSpace).head? ≠ some ':' := by
    intro hcolon
    apply hkey
    obtain ⟨tail, htail⟩ := List.head?_eq_some_iff.mp hcolon
    rw [← hfirst, ← hsecond, ← hthird, htail, ← List.append_assoc, ← List.append_assoc,
      List.append_assoc (List.takeWhile _ _), List.dropWhile_append_of_pos hpassed]
    rfl
  unfold repairHead
  dsimp only
  rw [if_neg hnoClosing, if_neg fun h => hnoColon h.2]
  exact ⟨rfl, hpassed⟩

/-- A brace or a comma stays where there is nothing to repair. -/
theorem repairText_delimiter (hdelimiter : c = '{' ∨ c = ',') (hkey : NoBareKey text)
    (hclosing : c = ',' → NoClosing text) : repairText (c :: text) = c :: repairText text := by
  have hquote : c ≠ '"' := by rcases hdelimiter with rfl | rfl <;> decide
  obtain ⟨hpushed, hconsumed⟩ := repairHead_kept hkey hclosing
  have hrest := repairText_plain (fun d hd => ne_of_isKeySpace (hconsumed d hd))
    (repairHead c text).rest
  rw [repairHead_append] at hrest
  rw [repairText, if_neg hquote, if_pos hdelimiter, hpushed, hrest, List.cons_append]

/-- A piece of a JSON text, which the repair passes. -/
structure Passed (text : List Char) : Prop where
  repair : ∀ rest, NoBareKey rest → repairText (text ++ rest) = text ++ repairText rest
  noBareKey : ∀ rest, NoBareKey rest → NoBareKey (text ++ rest)
  noClosing : ∀ rest, NoClosing (text ++ rest)

theorem ne_of_blank (h : Blank text) : ∀ c ∈ text, c ≠ '"' ∧ c ≠ '{' ∧ c ≠ ',' := by
  intro c hc
  rcases isBlank_iff.mp (h c hc) with rfl | rfl | rfl | rfl <;> decide

/-- White space around a piece. -/
theorem Passed.pad {before after : List Char} (hbefore : Blank before) (h : Passed text)
    (hafter : Blank after) : Passed (before ++ (text ++ after)) := by
  constructor
  · intro rest hrest
    rw [List.append_assoc, List.append_assoc, repairText_plain (ne_of_blank hbefore),
      h.repair _ (.append (ne_colon_of_blank hafter) hrest), repairText_plain (ne_of_blank hafter),
      List.append_assoc, List.append_assoc]
  · intro rest hrest
    rw [List.append_assoc, List.append_assoc]
    have hinner := h.noBareKey _ (.append (ne_colon_of_blank hafter) hrest)
    exact hinner.append (ne_colon_of_blank hbefore)
  · intro rest
    rw [List.append_assoc, List.append_assoc]
    exact .blank_append hbefore (h.noClosing _)

theorem Passed.literal_append (hbody : LiteralBody body)
    (h : ∀ rest, NoBareKey rest → repairText (tail ++ rest) = tail ++ repairText rest) :
    Passed (literal body ++ tail) where
  repair rest hrest := by
    rw [List.append_assoc, repairText_literal hbody, h rest hrest, List.append_assoc]
  noBareKey rest _ := by
    rw [List.append_assoc, Foundation.literal_append]
    exact .cons (by decide) (by decide)
  noClosing rest := by
    rw [List.append_assoc, Foundation.literal_append]
    exact .cons (by decide) (by decide) (by decide)

theorem Passed.literal (hbody : LiteralBody body) : Passed (literal body) := by
  rw [← List.append_nil (Foundation.literal body)]
  exact .literal_append hbody fun _ _ => rfl

/-- A name or a number. -/
theorem Passed.scalar (hne : text ≠ []) (h : ∀ c ∈ text, isScalarChar c = true) : Passed text := by
  have hchar {d : Char} (hd : isScalarChar d = false) : ∀ c ∈ text, c ≠ d :=
    ne_of_isScalarChar h hd
  constructor
  · intro rest _
    exact repairText_plain (fun c hc => ⟨hchar (by decide) c hc, hchar (by decide) c hc,
      hchar (by decide) c hc⟩) rest
  · intro rest hrest
    exact .append (hchar (by decide)) hrest
  · intro rest
    obtain ⟨c, tail, rfl⟩ := List.exists_cons_of_ne_nil hne
    exact .cons (isWhiteSpace_of_isScalarChar (h c (List.mem_cons_self ..)))
      (hchar (by decide) c (List.mem_cons_self ..)) (hchar (by decide) c (List.mem_cons_self ..))

theorem Passed.enclose (container : Container)
    (hrepair : ∀ rest, NoBareKey rest → repairText (text ++ rest) = text ++ repairText rest)
    (hkey : ∀ rest, NoBareKey rest → NoBareKey (text ++ rest)) :
    Passed (container.enclose text) := by
  have hclosing {c : Char} (hc : c = ']' ∨ c = '}') (rest : List Char) : NoBareKey (c :: rest) := by
    rcases hc with rfl | rfl <;> exact .cons (by decide) (by decide)
  have hplain {c : Char} (hquote : c ≠ '"') (hopen : c ≠ '{') (hcomma : c ≠ ',')
      (rest : List Char) : repairText (c :: rest) = c :: repairText rest :=
    @repairText_plain [c] (by simpa using ⟨hquote, hopen, hcomma⟩) rest
  cases container with
  | array =>
    refine ⟨fun rest _ => ?_, fun rest _ => .cons (by decide) (by decide),
      fun rest => .cons (by decide) (by decide) (by decide)⟩
    show repairText ('[' :: (text ++ [']'] ++ rest)) = _
    rw [List.append_assoc, List.singleton_append, hplain (by decide) (by decide) (by decide),
      hrepair _ (hclosing (.inl rfl) rest), hplain (by decide) (by decide) (by decide)]
    simp [Container.enclose]
  | object =>
    refine ⟨fun rest _ => ?_, fun rest _ => .cons (by decide) (by decide),
      fun rest => .cons (by decide) (by decide) (by decide)⟩
    show repairText ('{' :: (text ++ ['}'] ++ rest)) = _
    rw [List.append_assoc, List.singleton_append,
      repairText_delimiter (.inl rfl) (hkey _ (hclosing (.inr rfl) rest)) (fun h => nomatch h),
      hrepair _ (hclosing (.inr rfl) rest), hplain (by decide) (by decide) (by decide)]
    simp [Container.enclose]

/-- The repair passes each piece of a JSON text. -/
theorem passed_of_derives {kind : Kind} (h : Derives false kind text) : Passed text := by
  induction h with
  | constant hname =>
    exact .scalar (constants_ne_nil hname) fun _ hc => constants_isScalarChar hname hc
  | number hnumber => exact .scalar hnumber.ne_nil fun _ hc => hnumber.isScalarChar hc
  | string hstring =>
    obtain ⟨body, hbody, rfl⟩ := hstring.exists_literal
    exact .literal hbody
  | empty container hblank =>
    exact .enclose container (fun rest _ => repairText_plain (ne_of_blank hblank) rest)
      fun rest hrest => .append (ne_colon_of_blank hblank) hrest
  | @container container _ _ ih => exact .enclose container ih.repair ih.noBareKey
  | element hbefore _ hafter ih => exact .pad hbefore ih hafter
  | @member before key between gap value after hbefore hkey hbetween hgap _ hafter ih =>
    obtain ⟨body, hbody, rfl⟩ := (hkey.resolve_right fun h => nomatch h.1).exists_literal
    have hvalue := Passed.pad hgap ih hafter
    have htail : Passed (literal body ++ (between ++ ':' :: (gap ++ (value ++ after)))) := by
      apply Passed.literal_append hbody
      intro rest hrest
      have hcolon := @repairText_plain [':'] (List.all_iff_forall_prop.mp (by decide))
        (gap ++ (value ++ after) ++ rest)
      rw [List.append_assoc, List.cons_append, repairText_plain (ne_of_blank hbetween)]
      show between ++ repairText ([':'] ++ (gap ++ (value ++ after) ++ rest)) = _
      rw [hcolon, hvalue.repair rest hrest]
      simp
    have hpadded := @Passed.pad _ before [] hbefore htail fun _ hc => nomatch hc
    rwa [List.append_nil] at hpadded
  | last _ ih => exact ih
  | more _ _ ihItem ihItems =>
    have hcomma (rest : List Char) : NoBareKey (',' :: rest) := .cons (by decide) (by decide)
    refine ⟨fun rest hrest => ?_, fun rest hrest => ?_, fun rest => ?_⟩
    · rw [List.append_assoc, List.cons_append, ihItem.repair _ (hcomma _),
        repairText_delimiter (.inr rfl) (ihItems.noBareKey rest hrest)
          fun _ => ihItems.noClosing rest,
        ihItems.repair rest hrest, List.append_assoc, List.cons_append]
    · rw [List.append_assoc, List.cons_append]
      exact ihItem.noBareKey _ (hcomma _)
    · rw [List.append_assoc]
      exact ihItem.noClosing _
  | trailing hlenient => exact nomatch hlenient

/-- The repair leaves the text of an object as it is. -/
theorem repairText_objectText (h : ObjectText false text) : repairText text = text := by
  obtain ⟨inner, hinner, rfl⟩ := h
  have hpassed : Passed (Container.enclose .object inner) := by
    rcases hinner with hblank | hitems
    · exact passed_of_derives (.empty .object hblank)
    · exact passed_of_derives (.container hitems)
  have hrepair := hpassed.repair [] fun h => nomatch h
  rw [List.append_nil, repairText, List.append_nil] at hrepair
  exact hrepair

/-- A literal stays, and what stands outside of the literals is repaired on its own. -/
def RepairedSegment : Segment → List Char → Prop
  | .outside text, repaired => repairJsonObject (String.ofList text) = some (String.ofList repaired)
  | .literal text, repaired => repaired = text

/-- **The repair is conservative.**  It ends on every text without a slice inside of a character, it
leaves the text of an object as it is, and it copies the literals of every text. -/
theorem repairJsonObject_conservative (input : String) :
    ∃ repaired, repairJsonObject input = some repaired ∧
      (ObjectText false input.toList → repaired = input) ∧
      (∃ segments, Segments input.toList segments) ∧
      ∀ segments, Segments input.toList segments →
        ∃ parts, List.Forall₂ RepairedSegment segments parts ∧
          repaired.toList = parts.flatten := by
  refine ⟨_, repairJsonObject_eq input, fun h => ?_, exists_segments _, fun segments h => ?_⟩
  · rw [repairText_objectText h, String.ofList_toList]
  · refine ⟨segments.map repairSegment, ?_, ?_⟩
    · rw [List.forall₂_map_right_iff, List.forall₂_same]
      intro segment _
      cases segment with
      | outside text =>
        show repairJsonObject (String.ofList text) = some (String.ofList (repairText text))
        rw [repairJsonObject_eq, String.toList_ofList]
      | literal text => rfl
    · rw [String.toList_ofList, repairText_segments h, List.flatMap_def]

theorem repairJsonObject_conservative_note : repairJsonObject noteObject = some noteObject := by
  obtain ⟨repaired, hrepaired, hsame, -⟩ := repairJsonObject_conservative noteObject
  rw [hrepaired, hsame noteObject_objectText]

end GraphLoom.Query.Global
