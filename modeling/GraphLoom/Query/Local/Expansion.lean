import GraphLoom.Foundation.Greedy
import GraphLoom.Query.Local.Context
import Mathlib.Algebra.GroupWithZero.Nat

/-!
# The neighbourhood and the expansion of the selected entities

What is around the selected entities, over whole tables and without an index: the relationships
between two of them and those with an end outside, and the text units that they refer to.  Then the
attempts of the expansion, one for each number of entities, and the candidates of its sections in
each of them.
-/

namespace GraphLoom.Query.Local

open Foundation Std

def titlesOf (selectedEntities : List Entity) : List String := selectedEntities.map (·.title)

/-! ### Relationships -/

section Relationships

variable (titles : List String) (relationships : List Relationship)

/-- The relationships with an end among the titles. -/
def touching : List Relationship :=
  relationships.filter fun relationship =>
    relationship.source ∈ titles ∨ relationship.target ∈ titles

def inNetwork : List Relationship :=
  relationships.filter fun relationship =>
    relationship.source ∈ titles ∧ relationship.target ∈ titles

/-- Those that start at one of the titles come first. -/
def outNetwork : List Relationship :=
  (relationships.filter fun relationship =>
    relationship.source ∈ titles ∧ relationship.target ∉ titles) ++
  relationships.filter fun relationship =>
    relationship.target ∈ titles ∧ relationship.source ∉ titles

/-- The end outside of the titles. -/
def outsideEnd (relationship : Relationship) : String :=
  if relationship.source ∈ titles then relationship.target else relationship.source

/-- The distinct titles with a relationship to another one. -/
def linkedTitles (other : String) : Finset String :=
  titles.toFinset.filter fun title => ∃ relationship ∈ relationships,
    (relationship.source = title ∧ relationship.target = other) ∨
      (relationship.target = title ∧ relationship.source = other)

def compareRank (left right : Relationship) : Ordering :=
  compare (right.rank.getD 0) (left.rank.getD 0)

/-- By the number of links of the ends outside, then by rank. -/
def compareNeighbors (left right : Relationship) : Ordering :=
  (compare (linkedTitles titles relationships (outsideEnd titles right)).card
    (linkedTitles titles relationships (outsideEnd titles left)).card).then (compareRank left right)

/-- With one relationship to the outside, or none, nothing is cut. -/
def neighbourhood (topKRelationships selectedCount : ℕ) : List Relationship :=
  let out := outNetwork titles relationships
  sortBy compareRank (inNetwork titles relationships) ++
    if 1 < out.length then
      (sortBy (compareNeighbors titles relationships) out).take
        (usizeMul topKRelationships selectedCount)
    else out

end Relationships

/-! ### Text units -/

/-- The record of an identifier: the last one. -/
def textUnitOf (textUnits : List TextUnit) (id : String) : Option TextUnit :=
  textUnits.reverse.find? fun textUnit => textUnit.id = id

def relationshipsOf (relationships : List Relationship) (title : String) : List Relationship :=
  relationships.filter fun relationship =>
    relationship.source = title ∨ relationship.target = title

/-- The relationships of an entity in a text unit, by the list of the unit or else by their own. -/
def relationshipsIn (relationships : List Relationship) (title : String) (textUnit : TextUnit) : ℕ :=
  if textUnit.relationshipIds = [] then
    (relationshipsOf relationships title).countP fun relationship =>
      textUnit.id ∈ relationship.textUnitIds
  else
    textUnit.relationshipIds.countP fun id =>
      id ∈ (relationshipsOf relationships title).map (·.id)

/-- The first of the selected entities that refers to a text unit, with its place among them. -/
def firstReference (selectedEntities : List Entity) (id : String) : Option (Entity × ℕ) :=
  selectedEntities.zipIdx.find? fun entity => id ∈ entity.1.textUnitIds

namespace LocalContextBuilder

variable (builder : LocalContextBuilder)

/-- The positions that the expansion has found for entities. -/
def positionsOf (entities : List Entity) : ExtTreeSet ℕ :=
  entities.foldl
    (fun positions entity => positions.insertMany
      ((builder.index.relationshipsByEntity[entity.title]?).getD [])) ∅

/-- The index is that of the tables. -/
def Indexed : Prop :=
  ∃ covariateGroups, builder.index =
    { QueryDataIndex.new builder.entities builder.reports builder.textUnits builder.relationships
        builder.covariates with covariateGroups := covariateGroups }

/-! ### Rows -/

/-- The tokens of a text, or else what is given. -/
def recounted (text : String) (pieces : ℕ) : ℕ :=
  ((builder.ops.tokenizer.count text).toOption).getD pieces

/-- The tokens of the header and of each row, counted for themselves. -/
def pieceTokens (contextName : String) (table : ContextTable) : ℕ :=
  builder.recounted (sectionTitle contextName ++ delimitedRecord table.columns) 0 +
    (table.rows.map fun row => builder.recounted (delimitedRecord row) 0).sum

/-- The header and the first rows stay within the budget. -/
def RowsFit (maxTokens : ℕ) (title : String) (columns : List String) (rows : List (List String))
    (count : ℕ) : Prop :=
  min usizeMax (builder.pieceTokens title ⟨columns, rows.take count⟩) ≤ maxTokens

end LocalContextBuilder

/-! ### Sections -/

/-- The candidates of a section: their rows and identifiers, and the identifiers of those that the
rank has filtered out. -/
structure SectionCandidates where
  columns : List String
  rows : List (List String)
  ids : List String
  filtered : List String
deriving DecidableEq, Repr

structure ExpansionSection where
  kind : ContextSectionKind
  name : Option String
  /-- The title in the text. -/
  title : String
  /-- The name of its table. -/
  key : String
  /-- The candidates with the first entities. -/
  candidates : ℕ → SectionCandidates

namespace LocalContextBuilder

variable (builder : LocalContextBuilder)

/-! ### Attempts -/

section Attempts

variable (selectedEntities : List Entity)

def covariatePositionsOf (entities : List Entity) : List ℕ :=
  entities.flatMap fun entity => (builder.index.covariatesBySubject[entity.title]?).getD []

/-- The selection with the first entities, with the links that have been learned before. -/
def selectionAt : ℕ → RelationshipSelection × ExtTreeMap String ℕ
  | 0 => (⟨[], []⟩, ∅)
  | count + 1 =>
    filterRelationshipsCapture (selectedEntities.take (count + 1)) builder.relationships
      (builder.positionsOf (selectedEntities.take (count + 1))) builder.config.topKRelationships
      (selectionAt count).2 true

def covariatesAt (groupPositions : ExtTreeSet ℕ) (count : ℕ) : List Covariate :=
  ((builder.covariatePositionsOf (selectedEntities.take count)).filter fun position =>
    position ∈ groupPositions).filterMap (builder.covariates[·]?)

/-- The attempt with the first entities. -/
def attemptAt (maxTokens entityTokens : ℕ) (explainability : Bool) :
    ℕ → Except QueryError LocalExpansionAttempt
  | 0 => .ok ⟨[], ∅, entityTokens, []⟩
  | count + 1 =>
    (builder.buildLocalExpansionAttempt (selectedEntities.take (count + 1))
      (builder.positionsOf (selectedEntities.take (count + 1)))
      (builder.covariatePositionsOf (selectedEntities.take (count + 1))) maxTokens entityTokens
      (builder.selectionAt selectedEntities count).2 explainability).map Prod.fst

/-- An attempt with the relationships that are selected. -/
def attemptWith (selection : RelationshipSelection) (covariatePositions : List ℕ)
    (maxTokens entityTokens : ℕ) (explainability : Bool) :
    Except QueryError LocalExpansionAttempt := do
  let relationship ← builder.buildRelationshipContextFromSelection selection maxTokens
    explainability
  let attempt ← builder.addRelationships relationship maxTokens entityTokens explainability
  builder.index.covariateGroups.foldlM
    (builder.addCovariates covariatePositions maxTokens explainability) attempt

def AttemptFits (maxTokens entityTokens : ℕ) (explainability : Bool) (count : ℕ) : Prop :=
  ∃ attempt, builder.attemptAt selectedEntities maxTokens entityTokens explainability count =
    .ok attempt ∧ attempt.tokensUsed ≤ maxTokens

/-! ### Sections -/

def includeLinks (selection : RelationshipSelection) : Bool :=
  selection.selected.head?.any (·.links.isSome)

def relationshipCandidates (selection : RelationshipSelection) : SectionCandidates where
  columns := if includeLinks selection then relationshipColumns ++ ["links"]
    else relationshipColumns
  rows := selection.selected.map (builder.relationshipRow (includeLinks selection))
  ids := selection.selected.map (·.relationship.id)
  filtered := selection.rankFiltered.map (·.relationship.id)

def covariateCandidates (covariates : List Covariate) : SectionCandidates where
  columns := covariateColumns
  rows := covariates.map covariateRow
  ids := covariates.map (·.id)
  filtered := []

/-- The entities are candidates from the start. -/
def entityCandidates : SectionCandidates where
  columns := ["id", "entity", "description", "number of relationships"]
  rows := selectedEntities.map fun entity => [entity.shortId.getD "", entity.title,
    entity.description.getD "", pythonOptionalI64 entity.rank]
  ids := selectedEntities.map (·.id)
  filtered := []

def relationshipSection : ExpansionSection where
  kind := .relationships
  name := none
  title := "Relationships"
  key := "relationships"
  candidates := fun count =>
    builder.relationshipCandidates (builder.selectionAt selectedEntities count).1

def covariateSection (group : String × ExtTreeSet ℕ) : ExpansionSection where
  kind := .covariates
  name := some group.1
  title := group.1
  key := builder.ops.toLowercase group.1
  candidates := fun count => covariateCandidates (builder.covariatesAt selectedEntities group.2 count)

def entitySection : ExpansionSection where
  kind := .entities
  name := none
  title := "Entities"
  key := "entities"
  candidates := fun _ => entityCandidates selectedEntities

def expansionSections : List ExpansionSection :=
  builder.relationshipSection selectedEntities ::
    builder.index.covariateGroups.map (builder.covariateSection selectedEntities)

def localSections : List ExpansionSection :=
  entitySection selectedEntities :: builder.expansionSections selectedEntities

end Attempts

/-- No two sections have one table, as with the groups of the runtime. -/
def DistinctTables : Prop :=
  ("entities" :: "relationships" ::
    builder.index.covariateGroups.map fun group => builder.ops.toLowercase group.1).Nodup

end LocalContextBuilder

/-! ### Records -/

/-- The candidates of a rejected attempt that were none before, not even filtered ones. -/
def SectionCandidates.added (accepted rejected : SectionCandidates) : List String :=
  rejected.ids.diff (accepted.ids ++ accepted.filtered)

/-- A record says what is in the table of a section and what has been left out. -/
structure Reported (accepted rejected : SectionCandidates) (record : SectionExplainability) :
    Prop where
  selectedRecordIds : record.selectedRecordIds = accepted.ids.take record.selectedCount
  selectedCount : record.selectedCount = record.selectedRecordIds.length
  candidateCount : record.candidateCount =
    accepted.ids.length + (accepted.added rejected).length
  truncated : record.truncated =
    decide (record.selectedCount < accepted.ids.length ∨ accepted.added rejected ≠ [])

/-- A section of the context with the first `count` entities: its table has the longest prefix of
the rows that fits, and a record of it is that of the table. -/
def LocalContextBuilder.Kept (builder : LocalContextBuilder) (selectedEntities : List Entity)
    (maxTokens count : ℕ) (tables : Tables) (records : List SectionExplainability)
    (expansionSection : ExpansionSection) : Prop :=
  let accepted := expansionSection.candidates count
  let rejected := expansionSection.candidates (min (count + 1) selectedEntities.length)
  ∃ selectedCount,
    LongestPrefix (builder.RowsFit maxTokens expansionSection.title accepted.columns accepted.rows)
      accepted.rows.length selectedCount ∧
    ((tables[expansionSection.key]?).map (·.rows)).getD [] = accepted.rows.take selectedCount ∧
    ∀ record ∈ records, record.kind = expansionSection.kind → record.name = expansionSection.name →
      record.selectedCount = selectedCount ∧ Reported accepted rejected record

end GraphLoom.Query.Local
