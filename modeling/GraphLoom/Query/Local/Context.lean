import GraphLoom.Query.Local.Explainability

/-!
# The context of a local search

The context is built from sections, each with a budget of tokens: the conversation so far, the
reports of the communities of the selected entities, the entities with the relationships and
covariates around them, and the sources.  With a session the build also records what it decided.

The arithmetic on floats, the rendering of floats and `str::to_lowercase` are parameters.
-/

namespace GraphLoom.Query.Local

open Foundation Std

structure LocalSearchConfig where
  textUnitProp : F64
  communityProp : F64
  conversationHistoryMaxTurns : ℕ
  topKEntities : ℕ
  topKRelationships : ℕ
  maxContextTokens : ℕ

/-- The operations of the builder that are not modelled. -/
structure Operations where
  tokenizer : Tokenizer
  csv : CsvWriter
  /-- `(total as f64 * value) as usize` -/
  proportion : ℕ → F64 → ℕ
  /-- `(1.0 - community_prop - text_unit_prop).max(0.0)` -/
  localProportion : F64 → F64 → F64
  pythonF64 : F64 → String
  toLowercase : String → String

structure LocalContextBuilder where
  method : SearchMethod
  config : LocalSearchConfig
  entities : List Entity
  reports : List CommunityReport
  textUnits : List TextUnit
  relationships : List Relationship
  covariates : List Covariate
  index : QueryDataIndex
  ops : Operations

abbrev Tables := ExtTreeMap String ContextTable

/-- Named `Section` in the source. -/
structure ContextSection where
  text : String
  table : ContextTable
  tokensUsed : ℕ
  explainability : Option SectionExplainability

structure LocalSections where
  text : String
  tables : Tables
  tokensUsed : ℕ
  explainability : List SectionExplainability

structure ContextAssembly where
  parts : List String
  tables : Tables
  tokensUsed : ℕ
  explainability : List SectionExplainability

structure ConversationHistorySection where
  text : String
  table : ContextTable
  tokensUsed : ℕ
  capture : Option SectionExplainability

structure RankedRelationship where
  relationship : Relationship
  links : Option ℕ
deriving DecidableEq, Repr

structure RelationshipSelection where
  selected : List RankedRelationship
  rankFiltered : List RankedRelationship
deriving DecidableEq, Repr

structure SourceSelection where
  ranked : List (TextUnit × ℕ × ℕ)
  missing : Option (List ExplainabilityCandidate)
deriving DecidableEq, Repr

structure CommunitySelection where
  selected : List (CommunityReport × ℕ)
  nonTokenCandidates : Option (List ExplainabilityCandidate)
deriving DecidableEq, Repr

structure EntitySection where
  text : String
  table : ContextTable
  tokensUsed : ℕ
  explainability : Option SectionExplainability

structure LocalExpansionAttempt where
  text : List String
  tables : Tables
  tokensUsed : ℕ
  explainability : List SectionExplainability

/-- `Option::map` on the session. -/
def capture {α : Type} (explainability : Bool) (value : α) : Option α :=
  if explainability then some value else none

/-- `usize::saturating_mul`. -/
def usizeMul (a b : ℕ) : ℕ := min usizeMax (a * b)

def blank (text : String) : Bool := trim text = ""

/-! ### Selecting records -/

/-- One more match of a community. -/
def addMatch (communityId : String) : List (String × ℕ) → List (String × ℕ)
  | [] => [(communityId, 1)]
  | (candidate, count) :: rest =>
    if candidate = communityId then (candidate, usizeAdd count 1) :: rest
    else (candidate, count) :: addMatch communityId rest

def communityMatches (selectedEntities : List Entity) : List (String × ℕ) :=
  (selectedEntities.flatMap (·.communityIds)).foldl
    (fun found communityId => addMatch communityId found) []

def compareRelationshipRank (left right : RankedRelationship) : Ordering :=
  compare (right.relationship.rank.getD 0) (left.relationship.rank.getD 0)

def compareLinks (left right : RankedRelationship) : Ordering :=
  (compare (right.links.getD 0) (left.links.getD 0)).then (compareRelationshipRank left right)

/-- The end of a relationship outside of the selected entities and the one inside. -/
def outsideAndNeighbor (selectedNames : ExtTreeSet String) (relationship : Relationship) :
    String × String :=
  if relationship.source ∈ selectedNames then (relationship.target, relationship.source)
  else (relationship.source, relationship.target)

def neighborsByOutside (selectedNames : ExtTreeSet String)
    (outNetwork : List RankedRelationship) : ExtTreeMap String (ExtTreeSet String) :=
  outNetwork.foldl
    (fun neighbors ranked =>
      let (outside, neighbor) := outsideAndNeighbor selectedNames ranked.relationship
      neighbors.alter outside fun found => some ((found.getD ∅).insert neighbor)) ∅

def filterRelationshipsCapture (selectedEntities : List Entity) (relationships : List Relationship)
    (relationshipPositions : ExtTreeSet ℕ) (topKRelationships : ℕ)
    (learnedLinks : ExtTreeMap String ℕ) (captureRankFiltered : Bool) :
    RelationshipSelection × ExtTreeMap String ℕ :=
  let selectedNames := ExtTreeSet.ofList (selectedEntities.map (·.title))
  let candidates := relationshipPositions.toList.filterMap fun position => relationships[position]?
  let inNetwork := sortBy compareRelationshipRank
    ((candidates.filter fun relationship =>
      relationship.source ∈ selectedNames ∧ relationship.target ∈ selectedNames).map
        fun relationship => ⟨relationship, learnedLinks[relationship.id]?⟩)
  let outNetwork := sortBy compareRelationshipRank
    (((candidates.filter fun relationship =>
        relationship.source ∈ selectedNames ∧ relationship.target ∉ selectedNames) ++
      candidates.filter fun relationship =>
        relationship.target ∈ selectedNames ∧ relationship.source ∉ selectedNames).map
        fun relationship => ⟨relationship, none⟩)
  if 1 < outNetwork.length then
    let neighbors := neighborsByOutside selectedNames outNetwork
    let linked := outNetwork.map fun ranked =>
      { ranked with links := (neighbors[(outsideAndNeighbor selectedNames
          ranked.relationship).1]?).map (·.size) }
    let learnedLinks := linked.foldl
      (fun learned ranked =>
        match ranked.links with
        | some linkCount => learned.insert ranked.relationship.id linkCount
        | none => learned) learnedLinks
    let linked := sortBy compareLinks linked
    let budget := usizeMul topKRelationships selectedEntities.length
    (⟨inNetwork ++ linked.take budget,
      if captureRankFiltered then linked.drop budget else []⟩, learnedLinks)
  else (⟨inNetwork ++ outNetwork, []⟩, learnedLinks)

def countRelationships (entityRelationships : List Relationship) (textUnit : TextUnit) : ℕ :=
  if textUnit.relationshipIds = [] then
    (entityRelationships.filter fun relationship =>
      relationship.textUnitIds.contains textUnit.id).length
  else
    let relationshipIds := ExtTreeSet.ofList (entityRelationships.map (·.id))
    (textUnit.relationshipIds.filter fun id => id ∈ relationshipIds).length

def covariateColumns : List String :=
  ["id", "entity", "object_id", "status", "start_date", "end_date", "description"]

def pythonOptionalI64 : Option ℤ → String
  | none => "None"
  | some number => toString number

namespace LocalContextBuilder

variable (builder : LocalContextBuilder)

def pythonOptionalF64Truthy : Option F64 → String
  | some number => if number.isZero then "" else builder.ops.pythonF64 number
  | none => ""

def count (text operation : String) : Except QueryError ℕ :=
  contextError builder.method operation (builder.ops.tokenizer.count text)

/-- `count_for_explainability` falls back to the count of the fitting. -/
def countForExplainability (text : String) (reliableFallback : ℕ) : ℕ :=
  match builder.ops.tokenizer.count text with
  | .ok tokens => tokens
  | .error _ => reliableFallback

def countEmptyCommunityForExplainability : Option ℕ := (builder.ops.tokenizer.count "[]").toOption

/-! ### Fitting rows -/

/-- The loop over the rows, until one does not fit. -/
def fitRows (maxTokens : ℕ) (operation : String) :
    ContextTable → ℕ → List (List String) → Except QueryError (ContextTable × ℕ)
  | table, tokens, [] => .ok (table, tokens)
  | table, tokens, row :: rows => do
    let rowText ← table.renderDelimitedRow builder.method operation row
    let rowTokens ← builder.count rowText operation
    if maxTokens < usizeAdd tokens rowTokens then return (table, tokens)
    else fitRows maxTokens operation (table.push row) (usizeAdd tokens rowTokens) rows

def fitDelimitedRows (table : ContextTable) (candidates : List (List String))
    (contextName : String) (maxTokens : ℕ) (operation : String) :
    Except QueryError FittedTable := do
  let header ← table.renderDelimitedHeader builder.method operation contextName
  let tokens ← builder.count header operation
  let (fitted, tokens) ← builder.fitRows maxTokens operation table tokens candidates
  return ⟨fitted, tokens, candidates.length, fitted.rows.length⟩

/-- The same as `fit_delimited_rows` in the source. -/
def fitReportRows (table : ContextTable) (candidates : List (List String)) (contextName : String)
    (maxTokens : ℕ) (operation : String) : Except QueryError FittedTable :=
  builder.fitDelimitedRows table candidates contextName maxTokens operation

/-! ### The conversation -/

def buildConversationHistoryCapture (history : ConversationHistory) (remaining : ℕ)
    (explainability : Bool) : Except QueryError (Option ConversationHistorySection) := do
  let built ← history.buildUserContext builder.ops.tokenizer builder.ops.csv
    builder.config.conversationHistoryMaxTurns remaining
  if blank built.text then return none
  else
    let tokensUsed ← builder.count built.text "count conversation history context"
    let candidateCount :=
      (takeTurns builder.config.conversationHistoryMaxTurns history.userTurns).length
    let selectedCount := built.table.rows.length
    return some
      { text := built.text
        table := built.table
        tokensUsed := tokensUsed
        capture := capture explainability
          { kind := .conversationHistory
            name := none
            tokenBudget := builder.config.maxContextTokens
            tokensUsed := tokensUsed
            candidateCount := candidateCount
            selectedCount := selectedCount
            selectedRecordIds := []
            truncated := selectedCount < candidateCount
            candidates := [] } }

/-! ### Community reports -/

/-- A match whose report is there and ranked is selected. -/
def selectCommunityReport (selection : CommunitySelection) (found : String × ℕ) :
    CommunitySelection :=
  match (builder.index.reportByCommunityId[found.1]?).bind (builder.reports[·]?) with
  | none =>
    { selection with
      nonTokenCandidates := selection.nonTokenCandidates.map fun candidates => candidates ++
        [{ ExplainabilityCandidate.new found.1 .communityReport with
            reason := some .missingRecord }] }
  | some report =>
    if report.rank.any (·.geZero) then
      { selection with selected := selection.selected ++ [(report, found.2)] }
    else
      { selection with
        nonTokenCandidates := selection.nonTokenCandidates.map fun candidates => candidates ++
          [{ communityReportCandidate report with reason := some .rankThreshold }] }

def selectCommunityReports (found : List (String × ℕ)) (captureExclusions : Bool) :
    CommunitySelection :=
  found.foldl builder.selectCommunityReport ⟨[], capture captureExclusions []⟩

/-- `f64::default` is the positive zero. -/
def compareReports (left right : CommunityReport × ℕ) : Ordering :=
  (compare right.2 left.2).then
    ((right.1.rank.getD ⟨0⟩).totalCmp (left.1.rank.getD ⟨0⟩))

def reportTable : ContextTable := ⟨["id", "title", "content"], []⟩

def emptyCommunitySection (maxTokens : ℕ) (candidates : Option (List ExplainabilityCandidate))
    (tokensUsed : Option ℕ) : ContextSection where
  text := "[]"
  table := reportTable
  tokensUsed := tokensUsed.getD 0
  explainability :=
    match candidates, tokensUsed with
    | some candidates, some tokensUsed =>
      some
        { kind := .communityReports
          name := none
          tokenBudget := maxTokens
          tokensUsed := tokensUsed
          candidateCount := 0
          selectedCount := 0
          selectedRecordIds := []
          truncated := false
          candidates := candidates }
    | _, _ => none

def emptyCommunityTokens (explainability : Bool) : Option ℕ :=
  if explainability then builder.countEmptyCommunityForExplainability else none

def reportSpec (maxTokens : ℕ) : SectionExplainabilitySpec :=
  ⟨.communityReports, none, maxTokens, .communityMembership⟩

def buildCommunityContextCapture (selectedEntities : List Entity) (maxTokens : ℕ)
    (explainability : Bool) : Except QueryError (Option ContextSection) :=
  if selectedEntities = [] ∨ builder.reports = [] then .ok none
  else
    let found := communityMatches selectedEntities
    if found = [] then
      .ok (some (emptyCommunitySection maxTokens (capture explainability [])
        (builder.emptyCommunityTokens explainability)))
    else
      let selection := builder.selectCommunityReports found explainability
      if selection.selected = [] then
        .ok (some (emptyCommunitySection maxTokens selection.nonTokenCandidates
          (builder.emptyCommunityTokens explainability)))
      else do
        let selected := sortBy compareReports selection.selected
        let fitted ← builder.fitReportRows reportTable
          (selected.map fun report => [report.1.shortId, report.1.title, report.1.fullContent])
          "Reports" maxTokens "build Local Reports context"
        let record (fitted : FittedTable) := buildRecordSectionExplainability
          (reportSpec maxTokens) fitted (selected.map (·.1))
          (selection.nonTokenCandidates.getD []) communityReportCandidate
        if fitted.table.rows = [] then
          let emptyTokens := builder.emptyCommunityTokens explainability
          let fitted := { fitted with tokensUsed := emptyTokens.getD fitted.tokensUsed }
          return some
            ⟨"[]", fitted.table, fitted.tokensUsed, emptyTokens.map fun _ => record fitted⟩
        else
          let text ← fitted.table.renderCsvSection builder.method "render Local Reports context"
            builder.ops.csv "Reports"
          let fitted := if explainability then
            { fitted with tokensUsed := builder.countForExplainability text fitted.tokensUsed }
          else fitted
          return some
            ⟨text, fitted.table, fitted.tokensUsed, capture explainability (record fitted)⟩

/-! ### Entities and what is around them -/

def buildEntitySection (selectedEntities : List Entity) (maxTokens : ℕ) (explainability : Bool) :
    Except QueryError EntitySection := do
  let fitted ← builder.fitDelimitedRows
    ⟨["id", "entity", "description", "number of relationships"], []⟩
    (selectedEntities.map fun entity => [entity.shortId.getD "", entity.title,
      entity.description.getD "", pythonOptionalI64 entity.rank])
    "Entities" maxTokens "build Local Entities context"
  let text ← fitted.table.renderDelimitedSection builder.method "render Local Entities context"
    "Entities"
  let tokens ← builder.count text "count Local Entities context"
  return {
    text := text
    table := fitted.table
    tokensUsed := tokens
    explainability := capture explainability
      { kind := .entities
        name := none
        tokenBudget := maxTokens
        tokensUsed := tokens
        candidateCount := fitted.candidateCount
        selectedCount := fitted.selectedCount
        selectedRecordIds := (selectedEntities.take fitted.selectedCount).map (·.id)
        truncated := fitted.selectedCount < fitted.candidateCount
        candidates := [] } }

def relationshipColumns : List String := ["id", "source", "target", "description", "weight"]

def rankFilteredCandidate (ranked : RankedRelationship) : ExplainabilityCandidate :=
  { relationshipCandidate ranked.relationship with
    selected := false, reason := some .rankThreshold }

def rankFilteredRelationshipSection (selection : RelationshipSelection) (maxTokens : ℕ) :
    ContextSection where
  text := ""
  table := ⟨relationshipColumns, []⟩
  tokensUsed := 0
  explainability := some
    { kind := .relationships
      name := none
      tokenBudget := maxTokens
      tokensUsed := 0
      candidateCount := 0
      selectedCount := 0
      selectedRecordIds := []
      truncated := false
      candidates := selection.rankFiltered.map rankFilteredCandidate }

def relationshipRow (includeLinks : Bool) (ranked : RankedRelationship) : List String :=
  let relationship := ranked.relationship
  let row := [relationship.shortId.getD "", relationship.source, relationship.target,
    relationship.description.getD "", builder.pythonOptionalF64Truthy relationship.weight]
  if includeLinks then row ++ [(ranked.links.map toString).getD ""] else row

def buildRelationshipContextFromSelection (selection : RelationshipSelection) (maxTokens : ℕ)
    (explainability : Bool) : Except QueryError (Option ContextSection) :=
  if selection.selected = [] ∧ selection.rankFiltered = [] then .ok none
  else if selection.selected = [] then
    .ok (capture explainability (rankFilteredRelationshipSection selection maxTokens))
  else do
    let includeLinks := selection.selected.head?.any (·.links.isSome)
    let columns := if includeLinks then relationshipColumns ++ ["links"] else relationshipColumns
    let fitted ← builder.fitDelimitedRows ⟨columns, []⟩
      (selection.selected.map (builder.relationshipRow includeLinks)) "Relationships" maxTokens
      "build Local Relationships context"
    let text ← fitted.table.renderDelimitedSection builder.method
      "render Local Relationships context" "Relationships"
    return some ⟨text, fitted.table, fitted.tokensUsed, capture explainability
      (buildRecordSectionExplainability ⟨.relationships, none, maxTokens, .graphExpansion⟩ fitted
        (selection.selected.map (·.relationship))
        (selection.rankFiltered.map rankFilteredCandidate) relationshipCandidate)⟩

/-- The learned links are returned with the section. -/
def buildRelationshipContextFromPositionsCapture (selectedEntities : List Entity)
    (relationshipPositions : ExtTreeSet ℕ) (maxTokens : ℕ) (learnedLinks : ExtTreeMap String ℕ)
    (explainability : Bool) :
    Except QueryError (Option ContextSection × ExtTreeMap String ℕ) := do
  let (selection, learnedLinks) := filterRelationshipsCapture selectedEntities
    builder.relationships relationshipPositions builder.config.topKRelationships learnedLinks
    explainability
  let relationship ← builder.buildRelationshipContextFromSelection selection maxTokens
    explainability
  return (relationship, learnedLinks)

def covariateRow (covariate : Covariate) : List String :=
  [covariate.shortId.getD "", covariate.subjectId, covariate.objectId.getD "",
    covariate.status.getD "", covariate.startDate.getD "", covariate.endDate.getD "",
    covariate.description.getD ""]

def buildCovariateContextFromPositionsCapture (name : String) (groupPositions : ExtTreeSet ℕ)
    (positions : List ℕ) (maxTokens : ℕ) (explainability : Bool) :
    Except QueryError (Option ContextSection) :=
  let selected := (positions.filter fun position => position ∈ groupPositions).filterMap
    fun position => builder.covariates[position]?
  if groupPositions.isEmpty then .ok none
  else do
    let fitted ← builder.fitDelimitedRows ⟨covariateColumns, []⟩ (selected.map covariateRow) name
      maxTokens "build Local covariate context"
    let text ← fitted.table.renderDelimitedSection builder.method "render Local covariate context"
      name
    return some ⟨text, fitted.table, fitted.tokensUsed, capture explainability
      (buildRecordSectionExplainability ⟨.covariates, some name, maxTokens, .graphExpansion⟩
        fitted selected [] covariateCandidate)⟩

/-- The covariates of one group in an attempt. -/
def addCovariates (covariatePositions : List ℕ) (maxTokens : ℕ) (explainability : Bool)
    (attempt : LocalExpansionAttempt) (group : String × ExtTreeSet ℕ) :
    Except QueryError LocalExpansionAttempt := do
  match ← builder.buildCovariateContextFromPositionsCapture group.1 group.2 covariatePositions
    maxTokens explainability with
  | some contextSection =>
    let sectionTokens ← builder.count contextSection.text "count Local covariate context"
    return {
      text := attempt.text ++ [contextSection.text]
      tables := attempt.tables.insert (builder.ops.toLowercase group.1) contextSection.table
      tokensUsed := usizeAdd attempt.tokensUsed sectionTokens
      explainability := attempt.explainability ++
        (contextSection.explainability.map fun record =>
          { record with tokensUsed := sectionTokens }).toList }
  | none =>
    return {
      attempt with
      tables := attempt.tables.insert (builder.ops.toLowercase group.1) ⟨covariateColumns, []⟩
      explainability := attempt.explainability ++
        (capture explainability
          (emptySectionExplainability .covariates (some group.1) maxTokens)).toList }

/-- The relationships of an attempt. -/
def addRelationships (relationship : Option ContextSection) (maxTokens entityTokens : ℕ)
    (explainability : Bool) : Except QueryError LocalExpansionAttempt :=
  match relationship with
  | some contextSection => do
    let sectionTokens ← if contextSection.text = "" then Except.ok 0
      else builder.count contextSection.text "count Local Relationships context"
    return {
      text := if contextSection.text = "" then [] else [contextSection.text]
      tables := (∅ : Tables).insert "relationships" contextSection.table
      tokensUsed := usizeAdd entityTokens sectionTokens
      explainability := (contextSection.explainability.map fun record =>
        { record with tokensUsed := sectionTokens }).toList }
  | none =>
    .ok
      { text := []
        tables := (∅ : Tables).insert "relationships" ⟨relationshipColumns, []⟩
        tokensUsed := entityTokens
        explainability := (capture explainability
          (emptySectionExplainability .relationships none maxTokens)).toList }

def buildLocalExpansionAttempt (currentEntities : List Entity)
    (relationshipPositions : ExtTreeSet ℕ) (covariatePositions : List ℕ)
    (maxTokens entityTokens : ℕ) (learnedLinks : ExtTreeMap String ℕ) (explainability : Bool) :
    Except QueryError (LocalExpansionAttempt × ExtTreeMap String ℕ) := do
  let (relationship, learnedLinks) ← builder.buildRelationshipContextFromPositionsCapture
    currentEntities relationshipPositions maxTokens learnedLinks explainability
  let attempt ← builder.addRelationships relationship maxTokens entityTokens explainability
  let attempt ← builder.index.covariateGroups.foldlM
    (builder.addCovariates covariatePositions maxTokens explainability) attempt
  return (attempt, learnedLinks)

/-- The loop over the entities; `done` are those before. -/
def expandFrom (maxTokens entityTokens : ℕ) (explainability : Bool) :
    List Entity → LocalExpansionAttempt → ExtTreeMap String ℕ → ExtTreeSet ℕ → List ℕ →
      List Entity → Except QueryError LocalExpansionAttempt
  | _, accepted, _, _, _, [] => .ok accepted
  | done, accepted, learnedLinks, relationshipPositions, covariatePositions, entity :: rest => do
    let relationshipPositions := relationshipPositions.insertMany
      ((builder.index.relationshipsByEntity[entity.title]?).getD [])
    let covariatePositions := covariatePositions ++
      (builder.index.covariatesBySubject[entity.title]?).getD []
    let (attempt, learnedLinks) ← builder.buildLocalExpansionAttempt (done ++ [entity])
      relationshipPositions covariatePositions maxTokens entityTokens learnedLinks explainability
    if maxTokens < attempt.tokensUsed then
      return if explainability then
        { accepted with
          explainability :=
            rollbackSectionExplainability attempt.explainability accepted.explainability }
      else accepted
    else
      expandFrom maxTokens entityTokens explainability (done ++ [entity]) attempt learnedLinks
        relationshipPositions covariatePositions rest

def expandLocalGraph (selectedEntities : List Entity) (maxTokens entityTokens : ℕ)
    (explainability : Bool) : Except QueryError LocalExpansionAttempt :=
  builder.expandFrom maxTokens entityTokens explainability [] ⟨[], ∅, entityTokens, []⟩ ∅ ∅ []
    selectedEntities

def buildLocalContextCapture (selectedEntities : List Entity) (maxTokens : ℕ)
    (explainability : Bool) : Except QueryError LocalSections :=
  if selectedEntities = [] then .ok ⟨"", ∅, 0, []⟩
  else do
    let entity ← builder.buildEntitySection selectedEntities maxTokens explainability
    let expansion ← builder.expandLocalGraph selectedEntities maxTokens entity.tokensUsed
      explainability
    return {
      text := String.intercalate "\n\n"
        ((entity.text :: expansion.text).filter fun text => !blank text)
      tables := expansion.tables.insert "entities" entity.table
      tokensUsed := expansion.tokensUsed
      explainability := entity.explainability.toList ++ expansion.explainability }

/-! ### Sources -/

def compareSources (left right : TextUnit × ℕ × ℕ) : Ordering :=
  (compare left.2.1 right.2.1).then (compare right.2.2 left.2.2)

/-- One reference of an entity to a text unit; `seen` are the references before. -/
def selectTextUnit (entityOrder : ℕ) (entityRelationships : List Relationship)
    (state : ExtTreeSet String × SourceSelection) (textUnitId : String) :
    ExtTreeSet String × SourceSelection :=
  let (seen, selection) := state
  if textUnitId ∈ seen then (seen, selection)
  else
    match (builder.index.textUnitById[textUnitId]?).bind (builder.textUnits[·]?) with
    | none =>
      (seen.insert textUnitId, { selection with
        missing := selection.missing.map fun candidates => candidates ++
          [{ ExplainabilityCandidate.new textUnitId .textUnit with
              selected := false, reason := some .missingRecord }] })
    | some textUnit =>
      (seen.insert textUnitId, { selection with
        ranked := selection.ranked ++
          [(textUnit, entityOrder, countRelationships entityRelationships textUnit)] })

def entityRelationships (entity : Entity) : List Relationship :=
  ((builder.index.relationshipsByEntity[entity.title]?).getD []).filterMap
    fun position => builder.relationships[position]?

def selectSourceTextUnits (selectedEntities : List Entity) (captureMissing : Bool) :
    SourceSelection :=
  let start : SourceSelection := ⟨[], capture captureMissing []⟩
  let state := selectedEntities.zipIdx.foldl
    (fun state entity => entity.1.textUnitIds.foldl
      (builder.selectTextUnit entity.2 (builder.entityRelationships entity.1)) state) (∅, start)
  { state.2 with ranked := sortBy compareSources state.2.ranked }

def missingSourceSection (candidates : List ExplainabilityCandidate) (maxTokens : ℕ) :
    ContextSection where
  text := ""
  table := ⟨["id", "text"], []⟩
  tokensUsed := 0
  explainability := some
    { kind := .sources
      name := none
      tokenBudget := maxTokens
      tokensUsed := 0
      candidateCount := 0
      selectedCount := 0
      selectedRecordIds := []
      truncated := false
      candidates := candidates }

def buildSourceContextCapture (selectedEntities : List Entity) (maxTokens : ℕ)
    (explainability : Bool) : Except QueryError (Option ContextSection) :=
  if selectedEntities = [] then .ok none
  else
    let selection := builder.selectSourceTextUnits selectedEntities explainability
    if selection.ranked = [] then
      .ok ((selection.missing.filter fun candidates => !candidates.isEmpty).map
        fun candidates => missingSourceSection candidates maxTokens)
    else do
      let fitted ← builder.fitDelimitedRows ⟨["id", "text"], []⟩
        (selection.ranked.map fun ranked => [ranked.1.shortId, ranked.1.text]) "Sources" maxTokens
        "build Local Sources context"
      let text ← fitted.table.renderDelimitedSection builder.method "render Local Sources context"
        "Sources"
      let fitted := if explainability then
        { fitted with tokensUsed := builder.countForExplainability text fitted.tokensUsed }
      else fitted
      return some ⟨text, fitted.table, fitted.tokensUsed, capture explainability
        (buildRecordSectionExplainability ⟨.sources, none, maxTokens, .sourceReference⟩ fitted
          (selection.ranked.map (·.1)) (selection.missing.getD []) textUnitCandidate)⟩

/-! ### The context -/

/-- The conversation at the start of the context, with the tokens that remain after it. -/
def startAssembly (conversationHistory : Option ConversationHistory) (explainability : Bool) :
    Except QueryError (ContextAssembly × ℕ) :=
  let remaining := builder.config.maxContextTokens
  match conversationHistory with
  | none => .ok (⟨[], ∅, 0, []⟩, remaining)
  | some history => do
    match ← builder.buildConversationHistoryCapture history remaining explainability with
    | none => return (⟨[], ∅, 0, []⟩, remaining)
    | some contextSection =>
      let assembly : ContextAssembly :=
        { parts := [contextSection.text]
          tables := (∅ : Tables).insert "conversation history" contextSection.table
          tokensUsed := usizeAdd 0 contextSection.tokensUsed
          explainability := contextSection.capture.toList }
      return (assembly, remaining - contextSection.tokensUsed)

def addCommunity (assembly : ContextAssembly) : Option ContextSection → ContextAssembly
  | none => assembly
  | some contextSection =>
    { parts := assembly.parts ++ [contextSection.text]
      tables := assembly.tables.insert "reports" contextSection.table
      tokensUsed := usizeAdd assembly.tokensUsed contextSection.tokensUsed
      explainability := assembly.explainability ++ contextSection.explainability.toList }

def addLocal (assembly : ContextAssembly) (sections : LocalSections) : ContextAssembly :=
  let shown := !blank sections.text
  { parts := if shown then assembly.parts ++ [sections.text] else assembly.parts
    tables := if shown then assembly.tables.insertMany sections.tables.toList else assembly.tables
    tokensUsed := usizeAdd assembly.tokensUsed sections.tokensUsed
    explainability := assembly.explainability ++ sections.explainability }

def addSources (assembly : ContextAssembly) : Option ContextSection → ContextAssembly
  | none => assembly
  | some contextSection =>
    let shown := contextSection.text ≠ ""
    { parts := if shown then assembly.parts ++ [contextSection.text] else assembly.parts
      tables := if shown then assembly.tables.insert "sources" contextSection.table
        else assembly.tables
      tokensUsed := usizeAdd assembly.tokensUsed contextSection.tokensUsed
      explainability := assembly.explainability ++ contextSection.explainability.toList }

def buildContextSections (selectedEntities : List Entity)
    (conversationHistory : Option ConversationHistory) (explainability : Bool) :
    Except QueryError ContextAssembly := do
  let (assembly, remaining) ← builder.startAssembly conversationHistory explainability
  let communityTokens := builder.ops.proportion remaining builder.config.communityProp
  let localTokens := builder.ops.proportion remaining
    (builder.ops.localProportion builder.config.communityProp builder.config.textUnitProp)
  let sourceTokens := builder.ops.proportion remaining builder.config.textUnitProp
  let community ← builder.buildCommunityContextCapture selectedEntities communityTokens
    explainability
  let assembly := addCommunity assembly community
  let sections ← builder.buildLocalContextCapture selectedEntities localTokens explainability
  let assembly := addLocal assembly sections
  let sources ← builder.buildSourceContextCapture selectedEntities sourceTokens explainability
  return addSources assembly sources

/-- What `LocalContextBuild::context_tokens` is for the selected entities. -/
def contextTokens (selectedEntities : List Entity)
    (conversationHistory : Option ConversationHistory) (explainability : Bool) :
    Except QueryError ℕ := do
  let assembly ← builder.buildContextSections selectedEntities conversationHistory explainability
  return assembly.tokensUsed

end LocalContextBuilder

end GraphLoom.Query.Local
