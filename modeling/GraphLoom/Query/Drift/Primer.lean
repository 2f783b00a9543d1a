import GraphLoom.Foundation.Patterns
import GraphLoom.Foundation.Scan
import GraphLoom.Query.Global.Rating

/-!
# The primer of a DRIFT query

The first object in the text of an answer that can be read, as it is or after a repair.

The ranked reports are split into folds, each fold is answered by a call, and the answers are put
together in the order of the folds.
-/

namespace GraphLoom.Query.Drift

open Foundation

/-- `usize::saturating_add` counts the depth. -/
def jsonCandidates (input : String) : List String := objectCandidates (usizeAdd · 1) input

/-! ### The repair -/

/-- `([{,]\s*)([A-Za-z_][A-Za-z0-9_]*)(\s*:)`. -/
def bareKey : List Piece :=
  [.one fun c => c == '{' || c == ',', .many isWhiteSpace, .one fun c => c.isAlpha || c == '_',
    .many fun c => c.isAlphanum || c == '_', .many isWhiteSpace, .one fun c => c == ':']

/-- `$1"$2"$3`. -/
def quoteKey : List (List Char) → List Char
  | [delimiter, space, start, key, gap, colon] =>
    (delimiter ++ space) ++ ('"' :: ((start ++ key) ++ ('"' :: (gap ++ colon))))
  | texts => texts.flatten

/-- `,(\s*[}\]])`. -/
def trailingComma : List Piece :=
  [.one fun c => c == ',', .many isWhiteSpace, .one fun c => c == '}' || c == ']']

/-- `$1`. -/
def dropComma : List (List Char) → List Char
  | [_, space, closing] => space ++ closing
  | texts => texts.flatten

/-- The loop over the characters, and what is put behind them. -/
def repairSingleQuotedFrom : (inDouble inSingle escaped : Bool) → List Char → List Char
  | _, _, escaped, [] => if escaped then ['\\'] else []
  | inDouble, inSingle, escaped, c :: text =>
    if escaped then
      if inSingle ∧ c = '\x27' then '\x27' :: repairSingleQuotedFrom inDouble inSingle false text
      else '\\' :: c :: repairSingleQuotedFrom inDouble inSingle false text
    else if c = '\\' ∧ (inDouble ∨ inSingle) then repairSingleQuotedFrom inDouble inSingle true text
    else if inDouble then c :: repairSingleQuotedFrom (c ≠ '"') inSingle false text
    else if inSingle then
      if c = '\x27' then '"' :: repairSingleQuotedFrom inDouble false false text
      else if c = '"' then '\\' :: '"' :: repairSingleQuotedFrom inDouble inSingle false text
      else c :: repairSingleQuotedFrom inDouble inSingle false text
    else if c = '"' then c :: repairSingleQuotedFrom true inSingle false text
    else if c = '\x27' then '"' :: repairSingleQuotedFrom inDouble true false text
    else c :: repairSingleQuotedFrom inDouble inSingle false text

def repairSingleQuotedStrings (input : List Char) : List Char :=
  repairSingleQuotedFrom false false false input

/-- Both of the expressions can be compiled. -/
def repairJson (input : String) : Option String :=
  let quoted := replaceMatches bareKey quoteKey input.toList
  let withoutTrailing := replaceMatches trailingComma dropComma quoted
  some (String.ofList (repairSingleQuotedStrings withoutTrailing))

/-! ## The primer of a DRIFT query -/

section Primer

variable {α ω : Type}

/-- The folds from one of the indices on, from the offset that the ones before have left. -/
def arraySplitFrom (items : List α) (base remainder : ℕ) : List ℕ → ℕ → List (List α)
  | [], _ => []
  | index :: indices, offset =>
    let length := base + if index < remainder then 1 else 0
    let stop := offset + length
    let fold := (slice items offset stop).getD []
    fold :: arraySplitFrom items base remainder indices stop

/-- The offsets stay within the list, so that their sums do not overflow. -/
def arraySplit (items : List α) (folds : ℕ) : List (List α) :=
  let folds := max folds 1
  arraySplitFrom items (items.length / folds) (items.length % folds) (List.range folds) 0

structure PrimerResponse where
  intermediateAnswer : String
  score : ℤ
  followUpQueries : List String
deriving DecidableEq, Repr

structure PrimerAggregate (ω : Type) where
  answer : String
  score : ω
  followups : List String
  usage : QueryUsageCategory
deriving DecidableEq, Repr

/-- `mean` is the mean of scores as floats, one after another. -/
def aggregatePrimer (mean : List ℤ → ω) (results : List (PrimerResponse × QueryUsageCategory)) :
    Except QueryError (PrimerAggregate ω) :=
  let answers := results.map fun result => result.1.intermediateAnswer
  if answers.isEmpty then
    .error (.queryParse .drift "aggregate DRIFT primer responses"
      "primer returned no intermediate answer")
  else
    let followups := results.flatMap fun result => result.1.followUpQueries
    if followups.isEmpty then
      .error (.queryParse .drift "aggregate DRIFT primer responses"
        "primer returned no follow-up queries")
    else
      .ok {
        answer := "\n\n".intercalate answers
        score := mean (results.map fun result => result.1.score)
        followups := followups
        usage := results.foldl (fun total result => total.saturatingAdd result.2) .none }

/-- The calls of the folds; `runFold` is what the call of a fold returns, with its index. -/
def primerCalls (runFold : List α × ℕ → Except QueryError (PrimerResponse × QueryUsageCategory))
    (reports : List α) (folds concurrency : ℕ) :
    System (BufferedOrdered (List α) QueryError (PrimerResponse × QueryUsageCategory))
      (Option (List α × ℕ)) :=
  tryBufferedOrdered runFold concurrency (arraySplit reports folds)

/-- What the primer returns after its calls. -/
def runPrimer (mean : List ℤ → ω)
    (returned : Except QueryError (List (PrimerResponse × QueryUsageCategory))) :
    Except QueryError (PrimerAggregate ω) :=
  returned.bind (aggregatePrimer mean)

end Primer

end GraphLoom.Query.Drift
