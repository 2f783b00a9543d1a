import GraphLoom.Foundation.Grouping
import GraphLoom.Tables
import GraphLoom.Text
import Mathlib.Data.List.AList
import Mathlib.Data.List.ReduceOption
import Mathlib.Data.List.Sort
import Mathlib.Data.Prod.Lex
import Mathlib.Data.String.Basic

/-!
# Creating the communities of an index

The relationships become undirected edges, without repetitions and on request only those of the
largest connected component; the Leiden algorithm assigns the nodes to clusters on several levels,
and the assignments are collected into one cluster for each level, number and parent.

The algorithm, the decoding of HTML entities and the Unicode upper case mapping are not code of the
repository: they are the fields of `ClusterTools`.

The clusters of the relationship graph are joined with the entity and relationship tables.  A
cluster becomes a community when it has an entity and a relationship between two of its nodes; the
children of a community are the communities that have it as parent.
-/

namespace GraphLoom.Communities

open Foundation

section Clustering

variable {ω : Type}

def createCommunitiesContext : String := "create_communities"

structure ClusterRelationship (ω : Type) where
  source : String
  target : String
  weight : ω

structure CommunityCluster where
  level : ℤ
  community : ℤ
  parent : ℤ
  titles : List String
deriving DecidableEq, Repr

/-- An assignment of a node, here with its label, to a cluster of a level. -/
structure HierarchicalCluster where
  node : String
  cluster : ℕ
  level : ℕ
  parentCluster : Option ℕ
deriving DecidableEq, Repr

/-- An edge as the network builder takes it. -/
abbrev Edge (ω : Type) := String × String × ω

/-- What the clustering calls. -/
structure ClusterTools (ω : Type) where
  decodeHtmlEntities : String → String
  toUppercase : String → String
  /-- The labelled network of the edges, clustered with a maximal cluster size and a seed. -/
  hierarchicalLeiden : List (Edge ω) → ℕ → ℕ → Except String (List HierarchicalCluster)

/-! ### Node names -/

def normalizeNodeName (tools : ClusterTools ω) (name : String) : String :=
  tools.toUppercase (trim (tools.decodeHtmlEntities name))

def sortedPair (left right : String) : String × String :=
  if left ≤ right then (left, right) else (right, left)

/-! ### Edges -/

structure ClusterEdge (ω : Type) where
  source : String
  target : String
  weight : ω

/-- The pair of an edge, in the order of pairs. -/
def ClusterEdge.key (edge : ClusterEdge ω) : String ×ₗ String := toLex (edge.source, edge.target)

/-- One edge for each undirected pair, at the place and with the weight of its last occurrence. -/
def dedupeEdges (relationships : List (ClusterRelationship ω)) : List (ClusterEdge ω) :=
  let state := relationships.foldl
    (fun (state : (AList fun _ : String × String => ℕ) × List (Option (ClusterEdge ω)))
        relationship =>
      let pairIndexes := state.1
      let deduped := state.2
      let pair := sortedPair relationship.source relationship.target
      let nextIndex := deduped.length
      let deduped :=
        match pairIndexes.lookup pair with
        | some previousIndex => deduped.set previousIndex none
        | none => deduped
      (pairIndexes.insert pair nextIndex,
        deduped ++ [some { source := pair.1, target := pair.2, weight := relationship.weight }]))
    (∅, [])
  state.2.reduceOption

/-- The neighbours of each node, in order, for the nodes in order. -/
def adjacency (edges : List (ClusterEdge ω)) : List (String × List String) :=
  let arcs := edges.flatMap fun edge => [(edge.source, edge.target), (edge.target, edge.source)]
  (groupBy Prod.fst arcs).map fun (node, arcs) => (node, sortedSet (arcs.map Prod.snd))

/-- The nodes that the search reaches, with all visited ones.  A node enters the queue when it is
first visited, so the number of nodes is enough fuel. -/
def searchComponent (adjacency : List (String × List String)) :
    ℕ → List String → List String → List String → List String × List String
  | 0, _, visited, component => (component, visited)
  | _ + 1, [], visited, component => (component, visited)
  | fuel + 1, current :: queue, visited, component =>
    let neighbors := (adjacency.lookup current).getD []
    let next := neighbors.foldl (fun (next : List String × List String) neighbor =>
      if neighbor ∈ next.2 then next else (next.1 ++ [neighbor], next.2.insert neighbor))
      (queue, visited)
    searchComponent adjacency fuel next.1 next.2 (component.insert current)

/-- The first largest component, in the order of the nodes. -/
def largestConnectedComponent (edges : List (ClusterEdge ω)) : List String :=
  let adjacency := adjacency edges
  let state := adjacency.foldl
    (fun (state : List String × List String) (node, _) =>
      let largest := state.1
      let visited := state.2
      if node ∈ visited then state
      else
        let (component, visited) :=
          searchComponent adjacency adjacency.length [node] (visited.insert node) []
        (if largest.length < component.length then component else largest, visited))
    ([], [])
  state.1

def stableLcc (tools : ClusterTools ω) (edges : List (ClusterEdge ω)) : List (ClusterEdge ω) :=
  let normalized := edges.map fun edge =>
    { edge with
      source := normalizeNodeName tools edge.source
      target := normalizeNodeName tools edge.target }
  let lccNodes := largestConnectedComponent normalized
  let normalized := normalized.filter fun edge => edge.source ∈ lccNodes ∧ edge.target ∈ lccNodes
  -- the first weight of each pair is kept
  (groupBy (fun edge => toLex (sortedPair edge.source edge.target)) normalized).filterMap
    fun (pair, edges) => edges.head?.map fun edge =>
      { source := (ofLex pair).1, target := (ofLex pair).2, weight := edge.weight }

def sortEdges (edges : List (ClusterEdge ω)) : List (ClusterEdge ω) :=
  edges.insertionSort fun left right => left.key ≤ right.key

def prepareClusterEdges (tools : ClusterTools ω) (relationships : List (ClusterRelationship ω))
    (useLcc : Bool) : List (Edge ω) :=
  let edges := dedupeEdges relationships
  let edges := if useLcc then stableLcc tools edges else sortEdges edges
  edges.map fun edge => (edge.source, edge.target, edge.weight)

/-! ### Clusters -/

def clusterIndexToI64 (value : ℕ) (column : String) : Except GraphLoomError ℤ :=
  if (value : ℤ) ≤ i64Max then .ok value
  else .error (.invalidData createCommunitiesContext (column ++
    " cluster index is too large for i64: out of range integral type conversion attempted"))

/-- Level, number and parent of a cluster, in the order of triples. -/
def clusterKey (cluster : HierarchicalCluster) : Except GraphLoomError (ℤ ×ₗ ℤ ×ₗ ℤ) := do
  let community ← clusterIndexToI64 cluster.cluster "community"
  let parent ← cluster.parentCluster.elim (.ok (-1)) fun parent => clusterIndexToI64 parent "parent"
  return toLex ((cluster.level : ℤ), toLex (community, parent))

def clusterGraph (tools : ClusterTools ω) (relationships : List (ClusterRelationship ω))
    (maxClusterSize : ℕ) (useLcc : Bool) (seed : ℕ) :
    Except GraphLoomError (List CommunityCluster) := do
  let edges := prepareClusterEdges tools relationships useLcc
  let internal ← (tools.hierarchicalLeiden edges maxClusterSize seed).mapError
    (GraphLoomError.invalidData createCommunitiesContext)
  let keyed ← internal.mapM fun cluster => do
    let key ← clusterKey cluster
    return (key, cluster.node)
  return (groupBy Prod.fst keyed).map fun (key, nodes) =>
    { level := (ofLex key).1
      community := (ofLex (ofLex key).2).1
      parent := (ofLex (ofLex key).2).2
      titles := (nodes.map Prod.snd).insertionSort (· ≤ ·) }

end Clustering

/-! ## Creating the communities of an index -/

section Creating

variable {ω : Type}

structure EntityRow where
  id : String
  title : String
deriving DecidableEq, Repr

structure RelationshipRow (ω : Type) where
  id : String
  source : String
  target : String
  weight : ω
  textUnitIds : List String

structure CommunityRow where
  id : String
  humanReadableId : ℤ
  community : ℤ
  level : ℤ
  parent : ℤ
  children : List ℤ
  title : String
  entityIds : List String
  relationshipIds : List String
  textUnitIds : List String
  period : String
  size : ℤ
deriving DecidableEq, Repr

/-- What a run takes from its surroundings: the date, and the id that the n-th row gets. -/
structure RunIdentity where
  period : String
  newId : ℕ → String

/-- The entity id of each title; of several entities with one title, the last. -/
def titleToEntityId (entities : List EntityRow) : AList fun _ : String => String :=
  entities.foldl (fun ids entity => ids.insert entity.title entity.id) ∅

/-- The community of each title on each level. -/
def levelTitles (clusters : List CommunityCluster) : AList fun _ : ℤ × String => ℤ :=
  clusters.foldl (fun titles cluster =>
    cluster.titles.foldl (fun titles title =>
      titles.insert (cluster.level, title) cluster.community) titles) ∅

/-- The ids, and the text units, of the relationships inside a cluster. -/
def intraCommunityRelationships (cluster : CommunityCluster)
    (relationships : List (RelationshipRow ω)) (levelTitles : AList fun _ : ℤ × String => ℤ) :
    List String × List String :=
  let intra := relationships.filter fun relationship =>
    levelTitles.lookup (cluster.level, relationship.source) = some cluster.community ∧
      levelTitles.lookup (cluster.level, relationship.target) = some cluster.community
  (sortedSet (intra.map RelationshipRow.id), sortedSet (intra.flatMap RelationshipRow.textUnitIds))

/-- The row of a cluster, without its children; a cluster that nothing joins to is dropped. -/
def optionalCommunityRow (identity : RunIdentity) (entities : List EntityRow)
    (relationships : List (RelationshipRow ω)) (levelTitles : AList fun _ : ℤ × String => ℤ)
    (index : ℕ) (cluster : CommunityCluster) : Except GraphLoomError (Option CommunityRow) := do
  let entityIds := cluster.titles.filterMap fun title => (titleToEntityId entities).lookup title
  if entityIds.isEmpty then return none
  let (relationshipIds, textUnitIds) :=
    intraCommunityRelationships cluster relationships levelTitles
  if relationshipIds.isEmpty then return none
  let size ← usizeToI64 entityIds.length createCommunitiesContext "size"
  return some {
    id := identity.newId index
    humanReadableId := cluster.community
    community := cluster.community
    level := cluster.level
    parent := cluster.parent
    children := []
    title := "Community " ++ toString cluster.community
    entityIds
    relationshipIds
    textUnitIds
    period := identity.period
    size }

/-- The rows of the clusters in order, each with the number of rows before it. -/
def communityRows (identity : RunIdentity) (entities : List EntityRow)
    (relationships : List (RelationshipRow ω)) (clusters : List CommunityCluster) :
    Except GraphLoomError (List CommunityRow) :=
  clusters.foldlM (fun rows cluster => do
    let row ← optionalCommunityRow identity entities relationships (levelTitles clusters) rows.length
      cluster
    return rows ++ row.toList) []

/-- The communities of each parent. -/
def childrenByParent (rows : List CommunityRow) : List (ℤ × List ℤ) :=
  (groupBy CommunityRow.parent rows).map fun (parent, rows) =>
    (parent, sortedSet (rows.map CommunityRow.community))

def createCommunities (tools : ClusterTools ω) (identity : RunIdentity)
    (entities : List EntityRow) (relationships : List (RelationshipRow ω)) (maxClusterSize : ℕ)
    (useLcc : Bool) (seed : ℕ) : Except GraphLoomError (List CommunityRow) := do
  let clusterInput := relationships.map fun relationship =>
    { source := relationship.source
      target := relationship.target
      weight := relationship.weight }
  let clusters ← clusterGraph tools clusterInput maxClusterSize useLcc seed
  let rows ← communityRows identity entities relationships clusters
  return rows.map fun row =>
    { row with children := ((childrenByParent rows).lookup row.community).getD [] }

/-! ### The workflow -/

def readEntities (dataframe : List EntityRecord) : List EntityRow :=
  dataframe.map fun row => { id := row.id, title := row.title }

def readRelationships (dataframe : List (RelationshipRecord ω)) : List (RelationshipRow ω) :=
  dataframe.map fun row =>
    { id := row.id
      source := row.source
      target := row.target
      weight := row.weight
      textUnitIds := row.textUnitIds.toStringList }

def communitiesDataframe (rows : List CommunityRow) : List CommunityRecord :=
  rows.map fun row =>
    { id := row.id
      humanReadableId := row.humanReadableId
      community := some row.community
      level := row.level
      parent := some row.parent
      children := row.children
      title := row.title
      entityIds := .list row.entityIds
      relationshipIds := .list row.relationshipIds
      textUnitIds := .list row.textUnitIds
      period := some row.period
      size := some row.size }

/-- `CreateCommunitiesWorkflow::run`. -/
def createCommunitiesWorkflow (tools : ClusterTools ω) (identity : RunIdentity)
    (maxClusterSize : ℕ) (useLcc : Bool) (seed : ℕ) (tables : Tables ω) :
    Except GraphLoomError (Tables ω) := do
  let entities ← readDataframe "entities" tables.entities
  let relationships ← readDataframe "relationships" tables.relationships
  let communities ← createCommunities tools identity (readEntities entities)
    (readRelationships relationships) maxClusterSize useLcc seed
  return { tables with communities := some (communitiesDataframe communities) }

end Creating

end GraphLoom.Communities
