import GraphLoom.Foundation.TreeMaps
import GraphLoom.Studio.Graph

/-!
# Projections of the graph

A projection is a part of the graph that can be drawn.  Relationships name their ends by the titles
of entities; those whose titles each belong to one entity are resolved.  The overview takes resolved
relationships by priority while the limits allow it, and a subgraph starts from its seeds and takes
the relationships around them.
-/

namespace GraphLoom.Studio

open Foundation Std

structure GraphProjectionEntity where
  id : String
  title : String
  entityType : Option String
  degree : Option ℤ
  rank : Option ℤ
deriving DecidableEq, Repr

structure GraphProjectionRelationship where
  id : String
  sourceEntityId : String
  targetEntityId : String
  source : String
  target : String
  weight : Option F64
  rank : Option ℤ
deriving DecidableEq, Repr

structure GraphProjection where
  entities : List GraphProjectionEntity
  relationships : List GraphProjectionRelationship
  seedEntityIds : List String
  seedRelationshipIds : List String
  missingEntityIds : List String
  missingRelationshipIds : List String
  unresolvedRelationshipIds : List String
  unresolvedRelationshipCount : ℕ
  truncated : Bool
deriving DecidableEq, Repr

inductive GraphProjectionError where
  | seedLimitsTooSmall
deriving DecidableEq, Repr

structure ResolvedRelationship where
  relationship : GraphRelationshipDetail
  sourceEntityId : String
  targetEntityId : String
deriving DecidableEq, Repr

def GraphProjectionEntity.ofDetail (entity : GraphEntityDetail) : GraphProjectionEntity where
  id := entity.id
  title := entity.title
  entityType := entity.entityType
  degree := entity.degree
  rank := entity.rank

def projectionRelationship (relationship : ResolvedRelationship) : GraphProjectionRelationship where
  id := relationship.relationship.id
  sourceEntityId := relationship.sourceEntityId
  targetEntityId := relationship.targetEntityId
  source := relationship.relationship.source
  target := relationship.relationship.target
  weight := relationship.relationship.weight
  rank := relationship.relationship.rank

/-! ### Priorities -/

def compareEntityPriority (left right : GraphEntityDetail) : Ordering :=
  (compare right.rank left.rank).then (compare left.id right.id)

def compareOptionalWeightDesc (left right : Option F64) : Ordering :=
  match left, right with
  | some left, some right => right.totalCmp left
  | some _, none => .lt
  | none, some _ => .gt
  | none, none => .eq

def compareRelationshipPriority (left right : ResolvedRelationship) : Ordering :=
  (compare right.relationship.rank left.relationship.rank).then
    ((compareOptionalWeightDesc left.relationship.weight right.relationship.weight).then
      (compare left.relationship.id right.relationship.id))

/-! ### The index -/

/-- The positions of the resolved relationships are positions of their list. -/
structure ResolutionIndex where
  entitiesById : ExtTreeMap String GraphEntityDetail
  relationshipsById : ExtTreeMap String GraphRelationshipDetail
  resolvedRelationships : List ResolvedRelationship
  resolvedById : ExtTreeMap String (Fin resolvedRelationships.length)
  adjacency : ExtTreeMap String (List (Fin resolvedRelationships.length))
  unresolvedRelationshipCount : ℕ

def entitiesByTitle (entities : List GraphEntityDetail) :
    ExtTreeMap String (List GraphEntityDetail) :=
  entities.foldl (fun byTitle entity => pushAt byTitle entity.title entity) ∅

/-- The entity with a title, when there is no other. -/
def singleEntity (byTitle : ExtTreeMap String (List GraphEntityDetail)) (title : String) :
    Option GraphEntityDetail :=
  match byTitle[title]? with
  | some [entity] => some entity
  | _ => none

def resolve (byTitle : ExtTreeMap String (List GraphEntityDetail))
    (relationship : GraphRelationshipDetail) : Option ResolvedRelationship := do
  let source ← singleEntity byTitle relationship.source
  let target ← singleEntity byTitle relationship.target
  return ⟨relationship, source.id, target.id⟩

def resolvedById (resolved : List ResolvedRelationship) :
    ExtTreeMap String (Fin resolved.length) :=
  ExtTreeMap.ofList ((List.finRange resolved.length).map fun index =>
    (resolved[index].relationship.id, index))

/-- A loop is listed once. -/
def addAdjacent (resolved : List ResolvedRelationship)
    (adjacency : ExtTreeMap String (List (Fin resolved.length))) (index : Fin resolved.length) :
    ExtTreeMap String (List (Fin resolved.length)) :=
  let relationship := resolved[index]
  let adjacency := pushAt adjacency relationship.sourceEntityId index
  if relationship.sourceEntityId ≠ relationship.targetEntityId then
    pushAt adjacency relationship.targetEntityId index
  else adjacency

def adjacencyOf (resolved : List ResolvedRelationship) :
    ExtTreeMap String (List (Fin resolved.length)) :=
  (List.finRange resolved.length).foldl (addAdjacent resolved) ∅

def resolvedRelationshipsOf (snapshot : GraphDataSnapshot) : List ResolvedRelationship :=
  let byTitle := entitiesByTitle snapshot.entities
  sortBy compareRelationshipPriority (snapshot.relationships.filterMap (resolve byTitle))

def ResolutionIndex.new (snapshot : GraphDataSnapshot) : ResolutionIndex where
  entitiesById := ExtTreeMap.ofList (snapshot.entities.map fun entity => (entity.id, entity))
  relationshipsById :=
    ExtTreeMap.ofList (snapshot.relationships.map fun relationship => (relationship.id, relationship))
  resolvedRelationships := resolvedRelationshipsOf snapshot
  resolvedById := Studio.resolvedById (resolvedRelationshipsOf snapshot)
  adjacency := adjacencyOf (resolvedRelationshipsOf snapshot)
  unresolvedRelationshipCount :=
    snapshot.relationships.length - (resolvedRelationshipsOf snapshot).length

/-! ### Taking relationships -/

def additionalEndpointCount (entityIds : ExtTreeSet String) (source target : String) : ℕ :=
  let missing (id : String) : ℕ := if id ∈ entityIds then 0 else 1
  if source = target then missing source else missing source + missing target

/-- What the loops over the relationships keep, where `α` is a relationship or its position. -/
structure Selection (α : Type) where
  entityIds : ExtTreeSet String
  selected : List α
  truncated : Bool

/-- One turn of the loops of `overview` and `expand_subgraph`. -/
def Selection.add {α : Type} (maxEntities maxRelationships : ℕ)
    (relationship : α → ResolvedRelationship) (s : Selection α) (item : α) : Selection α :=
  let source := (relationship item).sourceEntityId
  let target := (relationship item).targetEntityId
  let additional := additionalEndpointCount s.entityIds source target
  if maxRelationships ≤ s.selected.length ∨ maxEntities < s.entityIds.size + additional then
    { s with truncated := true }
  else ⟨(s.entityIds.insert source).insert target, s.selected ++ [item], s.truncated⟩

def projectionEntities (index : ResolutionIndex) (ids : List String) :
    List GraphProjectionEntity :=
  (ids.filterMap fun id => index.entitiesById[id]?).map .ofDetail

/-! ### The overview -/

def entityFallback (index : ResolutionIndex) (maxEntities : ℕ) : GraphProjection :=
  let entities := sortBy compareEntityPriority (index.entitiesById.toList.map (·.2))
  { entities := (entities.take maxEntities).map .ofDetail
    relationships := []
    seedEntityIds := []
    seedRelationshipIds := []
    missingEntityIds := []
    missingRelationshipIds := []
    unresolvedRelationshipIds := []
    unresolvedRelationshipCount := index.unresolvedRelationshipCount
    truncated := maxEntities < entities.length }

def overview (snapshot : GraphDataSnapshot) (maxEntities maxRelationships : ℕ) : GraphProjection :=
  let index := ResolutionIndex.new snapshot
  if index.resolvedRelationships = [] then entityFallback index maxEntities
  else
    let s := index.resolvedRelationships.foldl
      (Selection.add maxEntities maxRelationships id) ⟨∅, [], false⟩
    { entities := projectionEntities index s.entityIds.toList
      relationships := s.selected.map projectionRelationship
      seedEntityIds := []
      seedRelationshipIds := []
      missingEntityIds := []
      missingRelationshipIds := []
      unresolvedRelationshipIds := []
      unresolvedRelationshipCount := index.unresolvedRelationshipCount
      truncated := s.truncated }

/-! ### Subgraphs -/

structure SeedSelection (index : ResolutionIndex) where
  entityIds : ExtTreeSet String
  relationshipIndexes : List (Fin index.resolvedRelationships.length)
  missingEntityIds : List String
  missingRelationshipIds : List String
  unresolvedRelationshipIds : List String

namespace SeedSelection

variable {index : ResolutionIndex} (selection : SeedSelection index)

def addEntity (id : String) : SeedSelection index :=
  match index.entitiesById[id]? with
  | some entity => { selection with entityIds := selection.entityIds.insert entity.id }
  | none => { selection with missingEntityIds := selection.missingEntityIds ++ [id] }

def addRelationship (id : String) : SeedSelection index :=
  if id ∉ index.relationshipsById then
    { selection with missingRelationshipIds := selection.missingRelationshipIds ++ [id] }
  else
    match index.resolvedById[id]? with
    | some resolved =>
      let relationship := index.resolvedRelationships[resolved]
      { selection with
        entityIds := (selection.entityIds.insert relationship.sourceEntityId).insert
          relationship.targetEntityId
        relationshipIndexes := selection.relationshipIndexes ++ [resolved] }
    | none =>
      { selection with unresolvedRelationshipIds := selection.unresolvedRelationshipIds ++ [id] }

end SeedSelection

def resolveSeeds (index : ResolutionIndex)
    (requestedEntityIds requestedRelationshipIds : List String) : SeedSelection index :=
  let selection : SeedSelection index := ⟨∅, [], [], [], []⟩
  let selection := (ExtTreeSet.ofList requestedEntityIds).toList.foldl
    SeedSelection.addEntity selection
  let selection := (ExtTreeSet.ofList requestedRelationshipIds).toList.foldl
    SeedSelection.addRelationship selection
  { selection with
    relationshipIndexes := sortBy
      (fun left right => compare index.resolvedRelationships[left].relationship.id
        index.resolvedRelationships[right].relationship.id) selection.relationshipIndexes }

/-- The relationships around the seeds, by priority. -/
def expansionCandidates (index : ResolutionIndex) (seeds : SeedSelection index) :
    List (Fin index.resolvedRelationships.length) :=
  let seedRelationshipIds := ExtTreeSet.ofList (seeds.relationshipIndexes.map fun index' =>
    index.resolvedRelationships[index'].relationship.id)
  let adjacent := ExtTreeSet.ofList
    (seeds.entityIds.toList.filterMap fun id => index.adjacency[id]?).flatten
  let candidates := adjacent.toList.filter fun index' =>
    index.resolvedRelationships[index'].relationship.id ∉ seedRelationshipIds
  sortBy (fun left right => compareRelationshipPriority index.resolvedRelationships[left]
    index.resolvedRelationships[right]) candidates

def expandSubgraph (index : ResolutionIndex) (seeds : SeedSelection index)
    (depth maxEntities maxRelationships : ℕ) :
    Selection (Fin index.resolvedRelationships.length) :=
  if depth = 0 then ⟨seeds.entityIds, seeds.relationshipIndexes, false⟩
  else
    (expansionCandidates index seeds).foldl
      (Selection.add maxEntities maxRelationships fun index' => index.resolvedRelationships[index'])
      ⟨seeds.entityIds, seeds.relationshipIndexes, false⟩

/-- The part of `subgraph` behind its index and seeds. -/
def projectSubgraph (index : ResolutionIndex) (seeds : SeedSelection index)
    (depth maxEntities maxRelationships : ℕ) : Except GraphProjectionError GraphProjection :=
  if maxEntities < seeds.entityIds.size ∨ maxRelationships < seeds.relationshipIndexes.length then
    .error .seedLimitsTooSmall
  else
    let s := expandSubgraph index seeds depth maxEntities maxRelationships
    let neighborEntityIds := s.entityIds.toList.filter (· ∉ seeds.entityIds)
    .ok
      { entities := projectionEntities index seeds.entityIds.toList ++
          projectionEntities index neighborEntityIds
        relationships := s.selected.map fun index' =>
          projectionRelationship index.resolvedRelationships[index']
        seedEntityIds := seeds.entityIds.toList
        seedRelationshipIds := seeds.relationshipIndexes.map fun index' =>
          index.resolvedRelationships[index'].relationship.id
        missingEntityIds := seeds.missingEntityIds
        missingRelationshipIds := seeds.missingRelationshipIds
        unresolvedRelationshipIds := seeds.unresolvedRelationshipIds
        unresolvedRelationshipCount := index.unresolvedRelationshipCount
        truncated := s.truncated }

def subgraph (snapshot : GraphDataSnapshot)
    (requestedEntityIds requestedRelationshipIds : List String)
    (depth maxEntities maxRelationships : ℕ) : Except GraphProjectionError GraphProjection :=
  let index := ResolutionIndex.new snapshot
  let seeds := resolveSeeds index requestedEntityIds requestedRelationshipIds
  projectSubgraph index seeds depth maxEntities maxRelationships

end GraphLoom.Studio
