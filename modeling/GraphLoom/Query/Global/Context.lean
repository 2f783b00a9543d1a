import GraphLoom.Foundation.Floats
import GraphLoom.Query.Config
import Mathlib.Data.Nat.Size

/-!
# The context of a global search

The generator of pseudorandom numbers of a CPython shuffle.  A number below a bound is drawn until
one is below it; the draws are bounded by fuel here, and the shuffle has no result when it runs out.

The selected reports with their weights, shuffled, in batches that the budget of tokens takes.  The
rows of a batch are sorted by weight and rank.
-/

namespace GraphLoom.Query.Global

def stateSize : ℕ := 624

def period : ℕ := 397

structure PythonRandom where
  state : Vector UInt32 stateSize
  index : ℕ

namespace PythonRandom

/-- `state[index]`. -/
def word (state : Vector UInt32 stateSize) (index : ℕ) : UInt32 :=
  state.get ⟨index % stateSize, Nat.mod_lt _ (by decide)⟩

/-! ### Seeding -/

def initGenrand (seed : UInt32) : PythonRandom where
  state := (List.range' 1 (stateSize - 1)).foldl
    (fun state index =>
      state.setIfInBounds index
        ((1812433253 : UInt32) * (word state (index - 1) ^^^ (word state (index - 1) >>> 30)) +
          UInt32.ofNat index))
    ((Vector.replicate stateSize 0).setIfInBounds 0 seed)
  index := stateSize

/-- The position behind the last word is that behind the first, which has the last word then. -/
def wrapState (state : Vector UInt32 stateSize) (i : ℕ) : Vector UInt32 stateSize × ℕ :=
  if stateSize ≤ i then (state.setIfInBounds 0 (word state (stateSize - 1)), 1) else (state, i)

/-- One turn over the keys. -/
def mixKey (keys : List UInt32) :
    Vector UInt32 stateSize × ℕ × ℕ → Vector UInt32 stateSize × ℕ × ℕ
  | (state, i, j) =>
    let state := state.setIfInBounds i
      ((word state i ^^^ ((word state (i - 1) ^^^ (word state (i - 1) >>> 30)) * 1664525)) +
        keys.getD j 0 + UInt32.ofNat j)
    let (state, i) := wrapState state (i + 1)
    (state, i, if keys.length ≤ j + 1 then 0 else j + 1)

/-- One turn without the keys. -/
def mixIndex : Vector UInt32 stateSize × ℕ → Vector UInt32 stateSize × ℕ
  | (state, i) =>
    wrapState (state.setIfInBounds i
      ((word state i ^^^ ((word state (i - 1) ^^^ (word state (i - 1) >>> 30)) * 1566083941)) -
        UInt32.ofNat i)) (i + 1)

def initByArray (keys : List UInt32) : PythonRandom :=
  let random := initGenrand 19650218
  let (state, i, _) := (mixKey keys)^[max stateSize keys.length] (random.state, 1, 0)
  let (state, _) := mixIndex^[stateSize - 1] (state, i)
  { state := state.setIfInBounds 0 0x80000000, index := stateSize }

def new (seed : UInt32) : PythonRandom := initByArray [seed]

/-! ### Numbers -/

/-- The next words, when all have been used. -/
def regenerate (state : Vector UInt32 stateSize) : Vector UInt32 stateSize :=
  (List.range stateSize).foldl
    (fun state index =>
      let value := (word state index &&& 0x80000000) ||| (word state (index + 1) &&& 0x7fffffff)
      state.setIfInBounds index
        (word state (index + period) ^^^ (value >>> 1) ^^^
          (if value &&& 1 = 0 then 0 else 0x9908b0df))) state

def temper (value : UInt32) : UInt32 :=
  let value := value ^^^ (value >>> 11)
  let value := value ^^^ ((value <<< 7) &&& 0x9d2c5680)
  let value := value ^^^ ((value <<< 15) &&& 0xefc60000)
  value ^^^ (value >>> 18)

def genrandUint32 (random : PythonRandom) : UInt32 × PythonRandom :=
  let random :=
    if stateSize ≤ random.index then { state := regenerate random.state, index := 0 } else random
  (temper (word random.state random.index), { random with index := random.index + 1 })

/-- Asserts that there are between one and 32 bits. -/
def getrandbits (bits : ℕ) (random : PythonRandom) : Option (UInt32 × PythonRandom) :=
  if 1 ≤ bits ∧ bits ≤ 32 then
    let (value, random) := random.genrandUint32
    some (value >>> UInt32.ofNat (32 - bits), random)
  else none

def randBelow (upper : ℕ) : ℕ → PythonRandom → Option (ℕ × PythonRandom)
  | 0, _ => none
  | fuel + 1, random => do
    let (candidate, random) ← random.getrandbits upper.size
    if candidate.toNat < upper then return (candidate.toNat, random)
    else randBelow upper fuel random

/-! ### Shuffling -/

variable {α : Type}

def shuffleLoop (fuel : ℕ) : List ℕ → PythonRandom → Array α → Option (Array α)
  | [], _, values => some values
  | upper :: rest, random, values => do
    let (selected, random) ← randBelow (upper + 1) fuel random
    shuffleLoop fuel rest random (values.swapIfInBounds upper selected)

def shuffle (fuel : ℕ) (random : PythonRandom) (values : List α) : Option (List α) :=
  (shuffleLoop fuel (List.range' 1 (values.length - 1)).reverse random values.toArray).map
    Array.toList

end PythonRandom

/-! ## The context of a global search -/

section Batches

open Foundation Std

structure WeightedReport where
  report : Query.CommunityReport
  occurrenceWeight : F64
deriving DecidableEq, Repr

/-- A row of the records of a batch. -/
structure ReportRecord where
  id : String
  title : String
  occurrenceWeight : F64
  content : String
  rank : F64
deriving DecidableEq, Repr

/-- What the batches are rendered as, one behind the other. -/
structure BatchOutputs where
  batches : List String
  records : List (List ReportRecord)
  batchReportIds : List (List String)
deriving DecidableEq, Repr

structure GlobalContextResult (ν : Type) extends BatchOutputs where
  usage : QueryUsageCategory
  dynamicRatings : List (DynamicRating ν)

structure GlobalContextBuilder where
  config : Query.GlobalSearchConfig
  entities : List Entity
  reports : List Query.CommunityReport
  tokenizer : Tokenizer
  csv : CsvWriter
  /-- The text of a float that Python has. -/
  pythonFloat : F64 → String

/-! ### Rows -/

def columns : List String := ["id", "title", "occurrence weight", "content", "rank"]

def contextName : String := "Reports"

/-- `unwrap_or_default`. -/
def rankOrDefault (report : Query.CommunityReport) : F64 := report.rank.getD ⟨0⟩

/-- The comparison of two ranks, of which an absent one is the least. -/
def partialCmpRank : Option F64 → Option F64 → Option Ordering
  | none, none => some .eq
  | none, some _ => some .lt
  | some _, none => some .gt
  | some left, some right => F64.partialCmp left right

/-- The higher weight first, then the higher rank. -/
def compareReports (left right : WeightedReport) : Ordering :=
  ((F64.partialCmp right.occurrenceWeight left.occurrenceWeight).getD .eq).then
    ((partialCmpRank right.report.rank left.report.rank).getD .eq)

def reportDataframe (reports : List WeightedReport) : List ReportRecord :=
  reports.map fun value =>
    ⟨value.report.shortId, value.report.title, value.occurrenceWeight, value.report.fullContent,
      rankOrDefault value.report⟩

namespace GlobalContextBuilder

variable {ν : Type} (builder : GlobalContextBuilder)

def reportRow (value : WeightedReport) : List String :=
  [value.report.shortId, value.report.title, builder.pythonFloat value.occurrenceWeight,
    value.report.fullContent, builder.pythonFloat (rankOrDefault value.report)]

def count (text operation : String) : Except QueryError ℕ :=
  contextError .global operation (builder.tokenizer.count text)

/-! ### Batches -/

/-- An empty batch is not cut. -/
def cutBatch (captureReportIds : Bool) (current : List WeightedReport) (outputs : BatchOutputs) :
    Except QueryError BatchOutputs := do
  if current.isEmpty then return outputs
  else
    let current := sortBy compareReports current
    let table : ContextTable := ⟨columns, current.map builder.reportRow⟩
    let text ← table.renderCsv .global "render Global community batch" builder.csv
    return {
      batches := outputs.batches ++ [text]
      records := outputs.records ++ [reportDataframe current]
      batchReportIds :=
        if captureReportIds then outputs.batchReportIds ++ [current.map (·.report.id)]
        else outputs.batchReportIds }

/-- The loop over the reports, with the batch that is open and its tokens. -/
def batchLoop (captureReportIds : Bool) (initialTokens : ℕ) :
    List WeightedReport → List WeightedReport → ℕ → BatchOutputs →
      Except QueryError (List WeightedReport × BatchOutputs)
  | [], current, _, outputs => .ok (current, outputs)
  | report :: rest, current, currentTokens, outputs => do
    let rowText ← (⟨columns, []⟩ : ContextTable).renderDelimitedRow .global
      "render Global community row" (builder.reportRow report)
    let rowTokens ← builder.count rowText "count Global community row tokens"
    if builder.config.maxContextTokens < usizeAdd currentTokens rowTokens then
      let outputs ← builder.cutBatch captureReportIds current outputs
      batchLoop captureReportIds initialTokens rest [report] (usizeAdd initialTokens rowTokens)
        outputs
    else
      batchLoop captureReportIds initialTokens rest (current ++ [report])
        (usizeAdd currentTokens rowTokens) outputs

def batch (reports : List WeightedReport) (usage : QueryUsageCategory)
    (dynamicRatings : List (DynamicRating ν)) (captureReportIds : Bool) :
    Except QueryError (GlobalContextResult ν) := do
  if reports.isEmpty then return ⟨⟨[], [], []⟩, usage, dynamicRatings⟩
  else
    let initial ← (⟨columns, []⟩ : ContextTable).renderDelimitedHeader .global
      "render Global community header" contextName
    let initialTokens ← builder.count initial "count Global community header tokens"
    let (current, outputs) ← builder.batchLoop captureReportIds initialTokens reports []
      initialTokens ⟨[], [], []⟩
    let outputs ← builder.cutBatch captureReportIds current outputs
    return ⟨outputs, usage, dynamicRatings⟩

/-! ### Weights -/

def textUnitsByCommunity : ExtTreeMap String (ExtTreeSet String) :=
  (builder.entities.flatMap fun entity =>
    entity.communityIds.map fun communityId => (communityId, entity.textUnitIds)).foldl
      (fun textUnits (communityId, textUnitIds) =>
        textUnits.alter communityId fun ids => some ((ids.getD ∅).insertMany textUnitIds)) ∅

/-- The number of text units of each report's community. -/
def communityWeights : ExtTreeMap String ℕ :=
  let textUnits := builder.textUnitsByCommunity
  ExtTreeMap.ofList (builder.reports.map fun report =>
    (report.communityId, (textUnits[report.communityId]?).elim 0 (·.size)))

/-- `rank >= 0.0`. -/
def passesRank (report : Query.CommunityReport) : Bool := report.rank.any F64.geZero

/-- The reports that pass the rank filter with their weights. -/
def weightedReports (reports : List Query.CommunityReport) : List WeightedReport :=
  let weights := builder.communityWeights
  let maxWeight := ((reports.filterMap fun report => weights[report.communityId]?).max?).getD 0
  (reports.filter passesRank).map fun report =>
    let raw := (weights[report.communityId]?).getD 0
    ⟨report, if maxWeight = 0 then ⟨0⟩ else F64.ratio raw maxWeight⟩

/-- The context with a seed of the shuffle; nothing when the draws run out of fuel. -/
def buildWithSeed (seed : UInt32) (fuel : ℕ) (reports : List Query.CommunityReport)
    (usage : QueryUsageCategory) (dynamicRatings : List (DynamicRating ν))
    (captureReportIds : Bool) : Option (Except QueryError (GlobalContextResult ν)) :=
  ((PythonRandom.new seed).shuffle fuel (builder.weightedReports reports)).map fun selected =>
    builder.batch selected usage dynamicRatings captureReportIds

end GlobalContextBuilder

end Batches

end GraphLoom.Query.Global
