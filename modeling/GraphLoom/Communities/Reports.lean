import GraphLoom.Communities.Create
import GraphLoom.Foundation.Json

/-!
# Reports of communities

A model writes a report about each community, from the highest level down.  A community whose report
fails has none.
-/

namespace GraphLoom.Communities

open Foundation

structure CommunityInputRow where
  community : ℤ
  level : ℤ
  parent : ℤ
  children : List ℤ
  entityIds : List String
  period : String
  size : ℤ
deriving DecidableEq, Repr

/-- A report as it is parsed from the JSON of an answer, whose numbers are finite. -/
structure CommunityReport where
  title : String
  summary : String
  rating : F64
  ratingExplanation : String
  findings : List Finding
  finite : rating.isFinite = true

structure CommunityReportRow where
  id : String
  humanReadableId : ℤ
  community : ℤ
  level : ℤ
  parent : ℤ
  children : List ℤ
  title : String
  summary : String
  fullContent : String
  rank : F64
  ratingExplanation : String
  findings : List Finding
  fullContentJson : String
  period : String
  size : ℤ
deriving DecidableEq, Repr

/-- What a run writes reports with: the contexts of the communities, the model with its prompt and
the parser of its answers, and the digest and the JSON of a report. -/
structure ReportTools where
  buildLocalContexts : List CommunityInputRow → Except GraphLoomError (ℤ → String)
  -- nothing where the request or the parser fails, which is a warning
  complete : CommunityInputRow → String → Except GraphLoomError (Option CommunityReport)
  genSha512Hash : String → String
  toStringPretty : CommunityReport → Except GraphLoomError String

def fullContent (report : CommunityReport) : String :=
  "\n\n".intercalate (["# " ++ report.title, report.summary] ++
    report.findings.flatMap fun finding => ["## " ++ finding.summary, finding.explanation])

def materializeReport (tools : ReportTools) (community : CommunityInputRow)
    (report : CommunityReport) : Except GraphLoomError CommunityReportRow := do
  let content := fullContent report
  let fullContentJson ← tools.toStringPretty report
  return {
    id := tools.genSha512Hash content
    humanReadableId := community.community
    community := community.community
    level := community.level
    parent := community.parent
    children := community.children
    title := report.title
    summary := report.summary
    fullContent := content
    rank := report.rating
    ratingExplanation := report.ratingExplanation
    findings := report.findings
    fullContentJson
    period := community.period
    size := community.size }

def extractReportForCommunity (tools : ReportTools) (context : String)
    (community : CommunityInputRow) : Except GraphLoomError (Option CommunityReportRow) := do
  match ← tools.complete community context with
  | none => return none
  | some report => some <$> materializeReport tools community report

/-- The reports of each level are in the order of its communities, whatever order they are completed
in. -/
def createCommunityReports (tools : ReportTools) (communities : List CommunityInputRow) :
    Except GraphLoomError (List CommunityReportRow) := do
  let localContexts ← tools.buildLocalContexts communities
  let levels := (groupBy CommunityInputRow.level communities).map fun (_, rows) =>
    rows.mergeSort fun a b => a.community ≤ b.community
  let reports ← levels.reverse.mapM fun rows => rows.mapM fun community =>
    extractReportForCommunity tools (localContexts community.community) community
  return reports.flatten.reduceOption

/-! ### The workflow -/

/-- A null is an error. -/
def requiredCell {α : Type} (type column : String) (cell : Option α) : Except GraphLoomError α :=
  okOr (.invalidData "create_community_reports" ("missing " ++ type ++ " column " ++ column)) cell

def readCommunityInputRows (dataframe : List CommunityRecord) :
    Except GraphLoomError (List CommunityInputRow) :=
  dataframe.mapM fun row => do
    let community ← requiredCell "integer" "community" row.community
    let parent ← requiredCell "integer" "parent" row.parent
    let period ← requiredCell "string" "period" row.period
    let size ← requiredCell "integer" "size" row.size
    return {
      community
      level := row.level
      parent
      children := row.children
      entityIds := row.entityIds.toStringList
      period
      size }

def communityReportsDataframe (rows : List CommunityReportRow) :
    List (CommunityReportRecord F64) :=
  rows.map fun row =>
    { id := row.id
      humanReadableId := row.humanReadableId
      community := some row.community
      level := row.level
      parent := some row.parent
      children := row.children
      title := row.title
      summary := row.summary
      fullContent := row.fullContent
      rank := row.rank
      ratingExplanation := row.ratingExplanation
      findings := row.findings
      fullContentJson := row.fullContentJson
      period := some row.period
      size := some row.size }

/-- `CreateCommunityReportsWorkflow::run`. -/
def createCommunityReportsWorkflow (tools : ReportTools) (tables : Tables F64) :
    Except GraphLoomError (Tables F64) := do
  let communities ← readDataframe "communities" tables.communities
  let reports ← createCommunityReports tools (← readCommunityInputRows communities)
  return { tables with communityReports := some (communityReportsDataframe reports) }

end GraphLoom.Communities
