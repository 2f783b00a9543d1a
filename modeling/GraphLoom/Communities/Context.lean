import GraphLoom.Communities.Reports
import GraphLoom.Foundation.Comparators
import GraphLoom.Foundation.TreeMaps

/-!
# Contexts of communities

The text about a community that its report is written from: the entities of the community and one
relationship of each, as CSV tables.  Relationships are added one after another, each with its
endpoints, until the text would be over the limit.

Claims have no part in it.  The writer of CSV and the tokenizer are parameters.
-/

namespace GraphLoom.Communities

open Foundation Std

structure EntityContextRow where
  id : String
  humanReadableId : ℤ
  title : String
  description : String
  degree : ℤ
deriving DecidableEq, Repr

structure RelationshipContextRow where
  id : String
  humanReadableId : ℤ
  source : String
  target : String
  description : String
  combinedDegree : ℤ
deriving DecidableEq, Repr

structure ExplodedEntityRow where
  community : ℤ
  level : ℤ
  entity : EntityContextRow
deriving DecidableEq, Repr

structure LocalContextRecord where
  title : String
  entity : EntityContextRow
  relationships : List RelationshipContextRow
deriving DecidableEq, Repr

structure RenderRecords where
  entities : List EntityContextRow
  relationships : List RelationshipContextRow
deriving DecidableEq, Repr

structure ContextTools where
  /-- what a `csv::Writer` without headers makes of the records -/
  writeCsv : List (List String) → Except GraphLoomError String
  /-- `Tokenizer::count` -/
  count : String → Except GraphLoomError ℕ

/-! ### Rendering -/

section Rendering

variable (tools : ContextTools)

def renderSection (title : String) (headers : List String) (rows : List (List String)) :
    Except GraphLoomError String := do
  let csv ← tools.writeCsv (headers :: rows)
  return title ++ "\n" ++ csv

def renderEntitiesCsv (rows : List EntityContextRow) : Except GraphLoomError String :=
  renderSection tools "-----Entities-----" ["human_readable_id", "title", "description", "degree"]
    (rows.map fun entity =>
      [toString entity.humanReadableId, entity.title, entity.description, toString entity.degree])

def renderRelationshipsCsv (rows : List RelationshipContextRow) : Except GraphLoomError String :=
  renderSection tools "-----Relationships-----"
    ["human_readable_id", "source", "target", "description", "combined_degree"]
    (rows.map fun relationship =>
      [toString relationship.humanReadableId, relationship.source, relationship.target,
        relationship.description, toString relationship.combinedDegree])

/-- A table without rows is left out. -/
def renderNonempty {α : Type} (render : List α → Except GraphLoomError String) (rows : List α) :
    Except GraphLoomError (Option String) :=
  if rows.isEmpty then .ok none else (render rows).map some

def renderContext (records : RenderRecords) : Except GraphLoomError String := do
  let entities ← renderNonempty (renderEntitiesCsv tools) records.entities
  let relationships ← renderNonempty (renderRelationshipsCsv tools) records.relationships
  return "\n\n".intercalate [entities, relationships].reduceOption

end Rendering

/-! ### One context -/

/-- What has been added, with its identifiers. -/
structure ContextState where
  entityIds : ExtTreeSet ℤ
  relationshipIds : ExtTreeSet ℤ
  rendered : RenderRecords

namespace ContextState

def empty : ContextState := ⟨∅, ∅, ⟨[], []⟩⟩

/-- The entity of a title, unless there is none or its identifier has been seen. -/
def addEndpoint (entitiesByTitle : ExtTreeMap String EntityContextRow) (state : ContextState)
    (title : String) : ContextState :=
  match entitiesByTitle[title]? with
  | some entity =>
    if entity.humanReadableId ∈ state.entityIds then state
    else { state with
      entityIds := state.entityIds.insert entity.humanReadableId
      rendered.entities := state.rendered.entities ++ [entity] }
  | none => state

def addRelationship (state : ContextState) (relationship : RelationshipContextRow) : ContextState :=
  if relationship.humanReadableId ∈ state.relationshipIds then state
  else { state with
    relationshipIds := state.relationshipIds.insert relationship.humanReadableId
    rendered.relationships := state.rendered.relationships ++ [relationship] }

/-- A relationship behind its endpoints. -/
def add (entitiesByTitle : ExtTreeMap String EntityContextRow) (state : ContextState)
    (relationship : RelationshipContextRow) : ContextState :=
  ([relationship.source, relationship.target].foldl (addEndpoint entitiesByTitle)
    state).addRelationship relationship

end ContextState

/-- The higher combined degree first, then the lower identifier. -/
def compareRelationships (left right : RelationshipContextRow) : Ordering :=
  (compare right.combinedDegree left.combinedDegree).then
    (compare left.humanReadableId right.humanReadableId)

section Sorting

variable (tools : ContextTools) (maxInputLength : ℕ)

/-- The loop over the relationships, with the text of those that fitted.  It leaves that text, and
all that has been added. -/
def sortLoop (entitiesByTitle : ExtTreeMap String EntityContextRow) :
    List RelationshipContextRow → ContextState → String →
      Except GraphLoomError (String × RenderRecords)
  | [], state, context => .ok (context, state.rendered)
  | relationship :: rest, state, context => do
    let state := state.add entitiesByTitle relationship
    let candidate ← renderContext tools state.rendered
    let tokens ← tools.count candidate
    if maxInputLength < tokens then return (context, state.rendered)
    else sortLoop entitiesByTitle rest state candidate

def entitiesByTitleOf (localContext : List LocalContextRecord) :
    ExtTreeMap String EntityContextRow :=
  ExtTreeMap.ofList (localContext.map fun record => (record.title, record.entity))

def sortedRelationships (localContext : List LocalContextRecord) : List RelationshipContextRow :=
  sortBy compareRelationships (localContext.flatMap (·.relationships))

def sortContext (localContext : List LocalContextRecord) : Except GraphLoomError String := do
  let (context, rendered) ← sortLoop tools maxInputLength (entitiesByTitleOf localContext)
    (sortedRelationships localContext) .empty ""
  if context = "" then renderContext tools rendered else return context

/-! ### All contexts -/

def explodeCommunities (communities : List CommunityInputRow) (entities : List EntityContextRow) :
    List ExplodedEntityRow :=
  let memberships : ExtTreeMap String (List CommunityInputRow) := (communities.flatMap fun community =>
    community.entityIds.map fun entityId => (entityId, community)).foldl
      (fun memberships (entityId, community) => pushAt memberships entityId community) ∅
  entities.flatMap fun entity => (memberships[entity.id]?.getD []).map fun community =>
    ⟨community.community, community.level, entity⟩

/-- The first relationship of each title. -/
def firstRelationshipsByTitle (relationships : List RelationshipContextRow)
    (title : RelationshipContextRow → String) : ExtTreeMap String RelationshipContextRow :=
  relationships.foldl (fun first row => first.insertIfNew (title row) row) ∅

/-- The key of a record: its title, its community and the degree of its entity. -/
abbrev RecordKey := String × ℤ × ℤ

/-- `Ord` of a tuple. -/
def compareRecordKeys (left right : RecordKey) : Ordering :=
  (compare left.1 right.1).then
    ((compare left.2.1 right.2.1).then (compare left.2.2 right.2.2))

/-- The records of the communities of one level, in the order of their keys. -/
def levelRecords (levelRows : List ExplodedEntityRow)
    (relationships : List RelationshipContextRow) : List (RecordKey × LocalContextRecord) :=
  let levelTitles := ExtTreeSet.ofList (levelRows.map (·.entity.title))
  let levelRelationships := relationships.filter fun relationship =>
    relationship.source ∈ levelTitles ∧ relationship.target ∈ levelTitles
  let sourceFirst := firstRelationshipsByTitle levelRelationships (·.source)
  let targetFirst := firstRelationshipsByTitle levelRelationships (·.target)
  let grouped := levelRows.foldl
    (fun (grouped : TreeMap RecordKey LocalContextRecord compareRecordKeys) row =>
      let title := row.entity.title
      grouped.alter (title, row.community, row.entity.degree) fun record =>
        let record := record.getD ⟨title, row.entity, []⟩
        some { record with relationships :=
          record.relationships ++ ((sourceFirst[title]?).or targetFirst[title]?).toList })
    ∅
  grouped.toList

def recordsByCommunityOf (records : List (RecordKey × LocalContextRecord)) :
    ExtTreeMap ℤ (List LocalContextRecord) :=
  records.foldl (fun recordsByCommunity ((_, community, _), record) =>
    pushAt recordsByCommunity community record) ∅

/-- The contexts of the communities of one level.  A community that comes again has no records
left. -/
def addLevelContexts : List CommunityInputRow → ExtTreeMap ℤ (List LocalContextRecord) →
    ExtTreeMap ℤ String → Except GraphLoomError (ExtTreeMap ℤ String)
  | [], _, contexts => .ok contexts
  | community :: rest, recordsByCommunity, contexts => do
    let records := recordsByCommunity[community.community]?.getD []
    let context ← sortContext tools maxInputLength records
    addLevelContexts rest (recordsByCommunity.erase community.community)
      (contexts.insert community.community context)

/-- The levels from the highest, and in each the communities in their order. -/
def buildLocalContexts (communities : List CommunityInputRow) (entities : List EntityContextRow)
    (relationships : List RelationshipContextRow) :
    Except GraphLoomError (ExtTreeMap ℤ String) :=
  let exploded := explodeCommunities communities entities
  let levels := (ExtTreeSet.ofList (exploded.map (·.level))).toList.reverse
  levels.foldlM (fun contexts level =>
    addLevelContexts tools maxInputLength (communities.filter (·.level = level))
      (recordsByCommunityOf (levelRecords (exploded.filter (·.level = level)) relationships))
      contexts) ∅

end Sorting

end GraphLoom.Communities
