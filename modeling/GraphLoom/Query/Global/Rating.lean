import GraphLoom.Foundation.Json
import GraphLoom.Foundation.Utf8
import GraphLoom.Query.Result
import GraphLoom.Text

/-!
# Ratings in an answer

The objects in the text of an answer are looked for from each opening brace on, byte by byte, and
the first one that is JSON is used.  The scan is written once for each kind of search, with the
addition for the depth as the only difference.

An answer without a JSON object is repaired before it is read: bare keys are quoted and trailing
commas are left out.  The repair holds a byte offset into the text; a slice that is not at the
boundaries of characters would panic, and a loop that has not come to its end is out of fuel (`none`
stands for both).
-/

namespace GraphLoom.Query

open Foundation

/-- The offset of the byte that brings the depth back to zero. -/
def closingBrace (increment : ℕ → ℕ) :
    List UInt8 → (offset depth : ℕ) → (inString escaped : Bool) → Option ℕ
  | [], _, _, _, _ => none
  | byte :: bytes, offset, depth, inString, escaped =>
    if inString then
      if escaped then closingBrace increment bytes (offset + 1) depth true false
      else if byte = '\\'.toUInt8 then closingBrace increment bytes (offset + 1) depth true true
      else if byte = '"'.toUInt8 then closingBrace increment bytes (offset + 1) depth false false
      else closingBrace increment bytes (offset + 1) depth true false
    else if byte = '"'.toUInt8 then closingBrace increment bytes (offset + 1) depth true escaped
    else if byte = '{'.toUInt8 then
      closingBrace increment bytes (offset + 1) (increment depth) false escaped
    else if byte = '}'.toUInt8 then
      -- `checked_sub`
      if depth = 0 then none
      else if depth - 1 = 0 then some offset
      else closingBrace increment bytes (offset + 1) (depth - 1) false escaped
    else closingBrace increment bytes (offset + 1) depth false escaped

def candidateAt (increment : ℕ → ℕ) (input : String) (start : ℕ) : Option String := do
  let offset ← closingBrace increment ((asBytes input.toList).drop start) 0 0 false false
  let object ← byteSlice input.toList start (start + offset + 1)
  return String.ofList object

/-- The offsets of the opening braces. -/
def openingBraces (input : String) : List ℕ :=
  (asBytes input.toList).zipIdx.filterMap fun (byte, index) =>
    if byte = '{'.toUInt8 then some index else none

def objectCandidates (increment : ℕ → ℕ) (input : String) : List String :=
  (openingBraces input).filterMap (candidateAt increment input)

namespace Global

-- the depth is at most the number of bytes, so that adding one to it does not overflow
def jsonObjectCandidates (input : String) : List String := objectCandidates (· + 1) input

/-- `serde_json::from_str` is a parameter. -/
def firstJsonObject (fromStr : String → Option Json.Value) (input : String) : Option String :=
  (jsonObjectCandidates input).find? fun object => (fromStr object).isSome

end Global

end GraphLoom.Query

/-! ## Ratings in an answer -/

namespace GraphLoom.Query.Global

open Foundation Json

/-- `input[index..].chars().next()`. -/
def nextChar (input : List Char) (index : ℕ) : Option (Option Char) :=
  (sliceFrom input index).map List.head?

/-- The loop that goes on while the next character satisfies a condition. -/
def skipWhile (p : Char → Bool) (input : List Char) : (fuel index : ℕ) → Option ℕ
  | 0, _ => none
  | fuel + 1, index => do
    match ← nextChar input index with
    | some c => if p c then skipWhile p input fuel (index + c.utf8Size) else some index
    | none => some index

/-- The loop behind an opening quote. -/
def skipString (input : List Char) : (fuel index : ℕ) → (escaped : Bool) → Option ℕ
  | 0, _, _ => none
  | fuel + 1, index, escaped =>
    if index < byteLength input then do
      match ← nextChar input index with
      | none => some index
      | some c =>
        let index := index + c.utf8Size
        if escaped then skipString input fuel index false
        else if c = '\\' then skipString input fuel index true
        else if c = '"' then some index
        else skipString input fuel index false
    else some index

def isKeyChar (c : Char) : Bool := c.isAlphanum || c == '_' || c == '-'

/-- A string literal is copied.  The first part is the index behind it. -/
def repairString (input : List Char) (start : ℕ) : Option (ℕ × List Char) := do
  let index ← skipString input (byteLength input + 1) (start + '"'.utf8Size) false
  return (index, ← byteSlice input start index)

/-- A brace or a comma, with the key that follows it. -/
def repairDelimiter (input : List Char) (delimiter : Char) (start : ℕ) :
    Option (ℕ × List Char) := do
  let fuel := byteLength input + 1
  let whitespaceStart := start + delimiter.utf8Size
  let keyStart ← skipWhile isWhiteSpace input fuel whitespaceStart
  let whitespace ← byteSlice input whitespaceStart keyStart
  let next ← nextChar input keyStart
  if delimiter = ',' ∧ (next = some '}' ∨ next = some ']') then
    return (keyStart, whitespace)
  let keyEnd ← skipWhile isKeyChar input fuel keyStart
  let index ← skipWhile isWhiteSpace input fuel keyEnd
  if keyStart < keyEnd ∧ (← nextChar input index) = some ':' then
    return (index + 1, delimiter :: whitespace ++ ['"'] ++ (← byteSlice input keyStart keyEnd) ++
      ['"'] ++ (← byteSlice input keyEnd index) ++ [':'])
  return (index, delimiter :: whitespace ++ (← byteSlice input keyStart index))

def repairFrom (input : List Char) : (fuel index : ℕ) → (repaired : List Char) → Option (List Char)
  | 0, _, _ => none
  | fuel + 1, index, repaired =>
    if index < byteLength input then do
      match ← nextChar input index with
      | none => some repaired
      | some character =>
        if character = '"' then
          let (index, pushed) ← repairString input index
          repairFrom input fuel index (repaired ++ pushed)
        else if character = '{' ∨ character = ',' then
          let (index, pushed) ← repairDelimiter input character index
          repairFrom input fuel index (repaired ++ pushed)
        else repairFrom input fuel (index + character.utf8Size) (repaired ++ [character])
    else some repaired

def repairJsonObject (input : String) : Option String :=
  (repairFrom input.toList (byteLength input.toList + 1) 0 []).map String.ofList

end GraphLoom.Query.Global
