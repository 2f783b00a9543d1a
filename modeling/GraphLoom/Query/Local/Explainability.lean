import GraphLoom.Foundation.Comparators
import GraphLoom.Query.ContextTable
import GraphLoom.Query.DataModel

/-!
# What is recorded of the sections of a local context

A session records for each section which candidates there were, which of them are in the context and
why the others are not.  When the expansion of the graph goes back to the last state that fits, the
records of the two attempts are merged.
-/

namespace GraphLoom.Query.Local

open Foundation

inductive SelectionReason where
  | annResult
  | explicitlyIncluded
  | explicitlyExcluded
  | graphExpansion
  | communityMembership
  | sourceReference
  | rankThreshold
  | tokenBudget
  | staleReference
  | missingRecord
deriving DecidableEq, Repr

inductive ContextSectionKind where
  | conversationHistory
  | communityReports
  | entities
  | relationships
  | covariates
  | sources
deriving DecidableEq, Repr

inductive ExplainabilityRecordType where
  | entity
  | relationship
  | covariate
  | communityReport
  | textUnit
deriving DecidableEq, Repr

structure ExplainabilityCandidate where
  id : String
  shortId : Option String
  title : Option String
  recordType : ExplainabilityRecordType
  selected : Bool
  reason : Option SelectionReason
deriving DecidableEq, Repr

def ExplainabilityCandidate.new (id : String) (recordType : ExplainabilityRecordType) :
    ExplainabilityCandidate :=
  ⟨id, none, none, recordType, false, none⟩

/-- What is recorded of a section. -/
structure SectionExplainability where
  kind : ContextSectionKind
  name : Option String
  tokenBudget : ℕ
  tokensUsed : ℕ
  candidateCount : ℕ
  selectedCount : ℕ
  selectedRecordIds : List String
  truncated : Bool
  candidates : List ExplainabilityCandidate
deriving DecidableEq, Repr

structure FittedTable where
  table : ContextTable
  tokensUsed : ℕ
  candidateCount : ℕ
  selectedCount : ℕ
deriving DecidableEq, Repr

structure SectionExplainabilitySpec where
  kind : ContextSectionKind
  name : Option String
  tokenBudget : ℕ
  selectedReason : SelectionReason
deriving DecidableEq, Repr

/-! ### Candidates -/

def communityReportCandidate (report : CommunityReport) : ExplainabilityCandidate :=
  { ExplainabilityCandidate.new report.id .communityReport with
    shortId := some report.shortId, title := some report.title }

def relationshipCandidate (relationship : Relationship) : ExplainabilityCandidate :=
  { ExplainabilityCandidate.new relationship.id .relationship with shortId := relationship.shortId }

def covariateCandidate (covariate : Covariate) : ExplainabilityCandidate :=
  { ExplainabilityCandidate.new covariate.id .covariate with shortId := covariate.shortId }

def textUnitCandidate (textUnit : TextUnit) : ExplainabilityCandidate :=
  { ExplainabilityCandidate.new textUnit.id .textUnit with shortId := some textUnit.shortId }

/-! ### Sections -/

def emptySectionExplainability (kind : ContextSectionKind) (name : Option String)
    (tokenBudget : ℕ) : SectionExplainability :=
  ⟨kind, name, tokenBudget, 0, 0, 0, [], false, []⟩

/-- A candidate at its position among the records of a section. -/
def decideCandidate (spec : SectionExplainabilitySpec) (fitted : FittedTable)
    (candidate : ExplainabilityCandidate) (index : ℕ) : ExplainabilityCandidate :=
  if index < fitted.selectedCount then
    { candidate with selected := true, reason := some spec.selectedReason }
  else { candidate with selected := false, reason := some .tokenBudget }

def buildRecordSectionExplainability {α : Type} (spec : SectionExplainabilitySpec)
    (fitted : FittedTable) (records : List α)
    (nonTokenCandidates : List ExplainabilityCandidate)
    (candidateFromRecord : α → ExplainabilityCandidate) : SectionExplainability where
  kind := spec.kind
  name := spec.name
  tokenBudget := spec.tokenBudget
  tokensUsed := fitted.tokensUsed
  candidateCount := fitted.candidateCount
  selectedCount := fitted.selectedCount
  selectedRecordIds := (records.take fitted.selectedCount).map fun record =>
    (candidateFromRecord record).id
  truncated := fitted.selectedCount < fitted.candidateCount
  candidates := (records.zipIdx.map fun record =>
    decideCandidate spec fitted (candidateFromRecord record.1) record.2) ++ nonTokenCandidates

/-! ### Going back -/

/-- Whether the reason is that the budget did not matter. -/
def nonToken (reason : Option SelectionReason) : Bool :=
  reason = some .rankThreshold || reason = some .missingRecord

/-- The first of the accepted candidates that has the identifier and is not matched yet. -/
def matchAccepted (id : String) : List (ExplainabilityCandidate × Bool) →
    Option (List (ExplainabilityCandidate × Bool))
  | [] => none
  | (candidate, matched) :: rest =>
    if ¬ matched ∧ candidate.id = id then some ((candidate, true) :: rest)
    else (matchAccepted id rest).map ((candidate, matched) :: ·)

/-- The loop of `rollback_one_section`: the accepted candidates with their marks, the candidates
that are new in the attempt and how many of these the budget has taken out. -/
def rollbackCandidates (accepted : List (ExplainabilityCandidate × Bool))
    (added : List ExplainabilityCandidate) (rolledBack : ℕ) :
    List ExplainabilityCandidate → List ExplainabilityCandidate × ℕ
  | [] => (added, rolledBack)
  | candidate :: attempted =>
    match matchAccepted candidate.id accepted with
    | some accepted => rollbackCandidates accepted added rolledBack attempted
    | none =>
      if nonToken candidate.reason then
        rollbackCandidates accepted (added ++ [candidate]) rolledBack attempted
      else
        rollbackCandidates accepted
          (added ++ [{ candidate with selected := false, reason := some .tokenBudget }])
          (usizeAdd rolledBack 1) attempted

def rollbackOneSection (attempted : SectionExplainability)
    (accepted : Option SectionExplainability) : SectionExplainability :=
  let start := accepted.getD
    (emptySectionExplainability attempted.kind attempted.name attempted.tokenBudget)
  let (added, rolledBack) := rollbackCandidates (start.candidates.map fun candidate =>
    (candidate, false)) [] 0 attempted.candidates
  let candidates := start.candidates ++ added
  let selectedRecordIds := (candidates.filter (·.selected)).map (·.id)
  { start with
    candidates := candidates
    candidateCount := candidates.countP fun candidate => !nonToken candidate.reason
    selectedRecordIds := selectedRecordIds
    selectedCount := selectedRecordIds.length
    truncated := start.truncated || decide (0 < rolledBack) }

/-- Whether two records are of the same section. -/
def sameSection (a b : SectionExplainability) : Bool := a.kind = b.kind && a.name = b.name

def rollbackSectionExplainability (attempted accepted : List SectionExplainability) :
    List SectionExplainability :=
  let rolledBack := attempted.map fun attemptedSection =>
    rollbackOneSection attemptedSection
      (accepted.find? fun acceptedSection => sameSection acceptedSection attemptedSection)
  accepted.foldl
    (fun rolledBack acceptedSection =>
      if rolledBack.any fun section' => sameSection section' acceptedSection then rolledBack
      else rolledBack ++ [acceptedSection])
    rolledBack

end GraphLoom.Query.Local
