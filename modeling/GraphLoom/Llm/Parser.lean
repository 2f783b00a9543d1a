import GraphLoom.Foundation.Replace
import GraphLoom.Foundation.Scan
import GraphLoom.Llm.Types
import GraphLoom.Text

/-!
# Parsers of model output

Entities and relationships, and claims, are tuples of fields in a list of records, which a marker
may end.  Other answers are JSON objects, whose text is cleaned up when it cannot be read as it is.
-/

namespace GraphLoom.Llm

open Foundation

def tupleDelimiter : String := "<|>"

def recordDelimiter : String := "##"

def completionDelimiter : String := "<|COMPLETE|>"

/-- `str::split` at a delimiter that is not empty. -/
def split (delimiter text : String) : List String :=
  (splitAtAll delimiter.toList text.toList).map String.ofList

structure ClaimRecord where
  subjectId : Option String
  objectId : Option String
  claimType : Option String
  status : Option String
  startDate : Option String
  endDate : Option String
  description : Option String
  sourceText : Option String
deriving DecidableEq, Repr

def pullField (fields : List String) (index : ℕ) : Option String :=
  fields[index]?.map trim

/-- A record without the parentheses around it. -/
def trimClaimRecord (record : String) : String :=
  let record := trim record
  let opened := (stripPrefix "(" record).getD record
  trim ((stripSuffix ")" opened).getD opened)

def parseClaim (claim : String) : Option ClaimRecord :=
  let claim := trimClaimRecord claim
  if claim.isEmpty ∨ claim = completionDelimiter then none
  else
    let fields := split tupleDelimiter claim
    some {
      subjectId := pullField fields 0
      objectId := pullField fields 1
      claimType := pullField fields 2
      status := pullField fields 3
      startDate := pullField fields 4
      endDate := pullField fields 5
      description := pullField fields 6
      sourceText := pullField fields 7 }

def parseClaimTuples (claims : String) : List ClaimRecord :=
  let withoutCompletion := (stripSuffix completionDelimiter (trim claims)).getD claims
  (split recordDelimiter withoutCompletion).filterMap parseClaim

/-! ### Entities and relationships -/

/-- What the records are read with: Unicode case mapping, HTML entities and the syntax of `f64`. -/
structure GraphTools (ω : Type) where
  toUppercase : String → String
  decodeHtmlEntities : String → String
  parseWeight : String → Option ω

variable {ω : Type}

structure EntityRecord where
  title : String
  entityType : String
  description : String
  sourceId : String
deriving DecidableEq, Repr

structure RelationshipRecord (ω : Type) where
  source : String
  target : String
  description : String
  sourceId : String
  weight : ω
deriving DecidableEq, Repr

structure GraphExtraction (ω : Type) where
  entities : List EntityRecord
  relationships : List (RelationshipRecord ω)
deriving DecidableEq, Repr

/-- The control characters that `clean_str` drops. -/
def isControl (c : Char) : Bool :=
  let code := c.toNat
  code ≤ 0x1f || (0x7f ≤ code && code ≤ 0x9f)

def cleanStr (tools : GraphTools ω) (value : String) : String :=
  String.ofList ((tools.decodeHtmlEntities (trim value)).toList.filter fun c => !isControl c)

/-- The body of `trim_tuple_record` is that of `trim_claim_record`. -/
def trimTupleRecord (record : String) : String := trimClaimRecord record

/-- What one record is read as: an entity, a relationship or nothing. -/
def parseGraphTuple [One ω] (tools : GraphTools ω) (sourceId rawRecord : String) :
    Option (EntityRecord ⊕ RelationshipRecord ω) :=
  let record := trimTupleRecord rawRecord
  if record.isEmpty ∨ record = completionDelimiter then none
  else
    match split tupleDelimiter record with
    | "\"entity\"" :: title :: entityType :: description :: _ =>
      some (.inl {
        title := cleanStr tools (tools.toUppercase title)
        entityType := cleanStr tools (tools.toUppercase entityType)
        description := cleanStr tools description
        sourceId })
    | "\"relationship\"" :: source :: target :: description :: strength :: rest =>
      some (.inr {
        source := cleanStr tools (tools.toUppercase source)
        target := cleanStr tools (tools.toUppercase target)
        description := cleanStr tools description
        sourceId
        -- the weight is read from the last field
        weight := (tools.parseWeight (rest.getLastD strength)).getD 1 })
    | _ => none

def parseGraphTuples [One ω] (tools : GraphTools ω) (result sourceId : String) :
    GraphExtraction ω :=
  let records := (split recordDelimiter result).filterMap (parseGraphTuple tools sourceId)
  { entities := records.filterMap Sum.getLeft?, relationships := records.filterMap Sum.getRight? }

/-! ### JSON objects -/

section JsonObject

open Json

def isObject : Value → Bool
  | .object _ => true
  | _ => false

/-- `str::find` of a character, with positions of characters for the offsets of bytes. -/
def findChar (c : Char) (text : List Char) : Option ℕ := text.findIdx? (· = c)

/-- `str::rfind` of a character. -/
def rfindChar (c : Char) (text : List Char) : Option ℕ :=
  (text.reverse.findIdx? (· = c)).map (text.length - 1 - ·)

def extractJsonObject (input : String) : Option String := do
  let start ← findChar '{' input.toList
  let stop ← rfindChar '}' input.toList
  if stop ≥ start then some (String.ofList ((input.toList.take (stop + 1)).drop start)) else none

/-- The replacements, one after the other.  No backslash is left for the one of `\n`. -/
def normalizeJson (text : List Char) : List Char :=
  let text := replace ['{', '{'] ['{'] text
  let text := replace ['}', '}'] ['}'] text
  let text := replace ['"', '[', '{'] ['[', '{'] text
  let text := replace ['}', ']', '"'] ['}', ']'] text
  let text := replace ['\\'] [' '] text
  let text := replace ['\\', 'n'] [' '] text
  let text := replace ['\n'] [' '] text
  replace ['\r'] [] text

def cleanJsonObject (input : String) : String :=
  let cleaned := (extractJsonObject input).getD input
  let cleaned := trim (String.ofList (normalizeJson cleaned.toList))
  let cleaned := (stripPrefix "```json" cleaned).getD cleaned
  let cleaned := (stripSuffix "```" cleaned).getD cleaned
  trim cleaned

-- `serde_json::from_str`
variable (fromStr : String → Except String Value)

def parseCleaned (cleaned : String) : Except LlmError (String × Value) :=
  match fromStr cleaned with
  | .error source => .error (.parse "json object" source)
  | .ok value =>
    if isObject value then .ok (cleaned, value)
    else .error (.parse "json object" "parsed value is not an object")

def tryParseJsonObject (input : String) : Except LlmError (String × Value) :=
  match fromStr input with
  | .ok value =>
    if isObject value then .ok (input, value) else parseCleaned fromStr (cleanJsonObject input)
  | .error _ => parseCleaned fromStr (cleanJsonObject input)

end JsonObject

end GraphLoom.Llm
