import GraphLoom.Communities.Create
import GraphLoom.Foundation.Fallible

/-!
# The hierarchy of communities

The clustering routine answers with a hierarchy of partitions.  The clusters made of it keep its
shape, and joining them with the tables drops no parent of a community that is kept, so the parents
and children of the communities form the same hierarchy (`createCommunities_wellFormed`).
-/

namespace GraphLoom.Communities

open Foundation

variable {ω : Type}

/-- What the clustering routine promises of its answer: a cluster id stands for one cluster, a node
is in one cluster of a level at most, and a cluster with a parent lies inside it, one level
below. -/
structure HierarchicalClustering (entries : List HierarchicalCluster) : Prop where
  ids_unique : ∀ e ∈ entries, ∀ e' ∈ entries, e.cluster = e'.cluster →
    e.level = e'.level ∧ e.parentCluster = e'.parentCluster
  partition : ∀ e ∈ entries, ∀ e' ∈ entries, e.level = e'.level → e.node = e'.node →
    e.cluster = e'.cluster
  nested : ∀ e ∈ entries, ∀ parent, e.parentCluster = some parent →
    ∃ e' ∈ entries, e'.cluster = parent ∧ e'.level + 1 = e.level ∧ e'.node = e.node

/-! ### Clusters -/

def CommunityCluster.key (cluster : CommunityCluster) : ℤ ×ₗ ℤ ×ₗ ℤ :=
  toLex (cluster.level, toLex (cluster.community, cluster.parent))

/-- The number of a parent, with `-1` for none. -/
def parentNumber (parent : Option ℕ) : ℤ := parent.elim (-1) fun parent => parent

def HierarchicalCluster.key (entry : HierarchicalCluster) : ℤ ×ₗ ℤ ×ₗ ℤ :=
  toLex ((entry.level : ℤ), toLex ((entry.cluster : ℤ), parentNumber entry.parentCluster))

theorem clusterIndexToI64_ok {value : ℕ} {column : String} {i : ℤ}
    (h : clusterIndexToI64 value column = .ok i) : i = value := by
  unfold clusterIndexToI64 at h
  split_ifs at h
  exact (Except.ok.inj h).symm

theorem clusterKey_ok {entry : HierarchicalCluster} {key : ℤ ×ₗ ℤ ×ₗ ℤ}
    (h : clusterKey entry = .ok key) : key = entry.key := by
  unfold clusterKey at h
  obtain ⟨community, hcommunity, h⟩ := bind_eq_ok.mp h
  obtain ⟨parent, hparent, h⟩ := bind_eq_ok.mp h
  have hparent : parent = parentNumber entry.parentCluster := by
    unfold parentNumber
    cases hp : entry.parentCluster with
    | none =>
      rw [hp] at hparent
      exact (Except.ok.inj hparent).symm
    | some p =>
      rw [hp] at hparent
      exact clusterIndexToI64_ok hparent
  rw [HierarchicalCluster.key, ← clusterIndexToI64_ok hcommunity, ← hparent]
  exact (Except.ok.inj h).symm

/-- The clusters collect the entries by their keys. -/
structure Collects (entries : List HierarchicalCluster) (clusters : List CommunityCluster) :
    Prop where
  mem_titles_iff : ∀ cluster ∈ clusters, ∀ title, title ∈ cluster.titles ↔
    ∃ e ∈ entries, e.key = cluster.key ∧ e.node = title
  titles_nonempty : ∀ cluster ∈ clusters, cluster.titles ≠ []
  exists_cluster : ∀ e ∈ entries, ∃ cluster ∈ clusters, cluster.key = e.key
  key_unique : ∀ c ∈ clusters, ∀ c' ∈ clusters, c.key = c'.key → c = c'

theorem clusterGraph_ok {tools : ClusterTools ω} {relationships : List (ClusterRelationship ω)}
    {maxClusterSize seed : ℕ} {useLcc : Bool} {clusters : List CommunityCluster}
    (h : clusterGraph tools relationships maxClusterSize useLcc seed = .ok clusters) :
    ∃ entries, tools.hierarchicalLeiden (prepareClusterEdges tools relationships useLcc)
      maxClusterSize seed = .ok entries ∧ Collects entries clusters := by
  unfold clusterGraph at h
  obtain ⟨entries, hentries, h⟩ := bind_eq_ok.mp h
  obtain ⟨keyed, hkeyed, h⟩ := bind_eq_ok.mp h
  obtain rfl := Except.ok.inj h
  refine ⟨entries, ?_, ?_⟩
  · cases hleiden : tools.hierarchicalLeiden (prepareClusterEdges tools relationships useLcc)
      maxClusterSize seed with
    | error message =>
      rw [hleiden] at hentries
      exact absurd hentries (by simp [Except.mapError])
    | ok entries' =>
      rw [hleiden] at hentries
      exact congrArg _ (Except.ok.inj hentries)
  have hpairs : keyed = entries.map fun e => (e.key, e.node) := by
    rw [← List.forall₂_eq_eq_eq, List.forall₂_map_right_iff]
    refine ((mapM_eq_ok_iff.mp hkeyed).imp fun e p hp => ?_).flip
    obtain ⟨key, hkey, hp⟩ := bind_eq_ok.mp hp
    show p = (e.key, e.node)
    rw [← clusterKey_ok hkey]
    exact (Except.ok.inj hp).symm
  have hmem : ∀ key nodes, (key, nodes) ∈ groupBy Prod.fst keyed →
      nodes ≠ [] ∧ ∀ title, title ∈ nodes.map Prod.snd ↔
        ∃ e ∈ entries, e.key = key ∧ e.node = title := by
    intro key nodes hgroup
    obtain ⟨rfl, hne⟩ := (mem_groupBy_iff _ _).mp hgroup
    refine ⟨hne, fun title => ?_⟩
    rw [hpairs]
    simp only [List.mem_map, List.mem_filter, decide_eq_true_eq]
    constructor
    · rintro ⟨p, ⟨⟨e, he, rfl⟩, hkey⟩, rfl⟩
      exact ⟨e, he, hkey, rfl⟩
    · rintro ⟨e, he, hkey, rfl⟩
      exact ⟨_, ⟨⟨e, he, rfl⟩, hkey⟩, rfl⟩
  constructor
  · intro cluster hcluster title
    obtain ⟨⟨key, nodes⟩, hgroup, rfl⟩ := List.mem_map.mp hcluster
    exact (List.mem_insertionSort _).trans ((hmem key nodes hgroup).2 title)
  · intro cluster hcluster hnil
    obtain ⟨⟨key, nodes⟩, hgroup, rfl⟩ := List.mem_map.mp hcluster
    have hlength := congrArg List.length hnil
    rw [List.length_insertionSort, List.length_map] at hlength
    exact (hmem key nodes hgroup).1 (List.length_eq_zero_iff.mp hlength)
  · intro e he
    have hrow : (e.key, e.node) ∈ keyed := by
      rw [hpairs]
      exact List.mem_map_of_mem he
    exact ⟨_, List.mem_map_of_mem (exists_mem_groupBy Prod.fst hrow), rfl⟩
  · intro c hc c' hc' hkey
    obtain ⟨⟨key, nodes⟩, hgroup, rfl⟩ := List.mem_map.mp hc
    obtain ⟨⟨key', nodes'⟩, hgroup', rfl⟩ := List.mem_map.mp hc'
    have hkey : key = key' := hkey
    subst hkey
    rw [((mem_groupBy_iff _ _).mp hgroup).1, ((mem_groupBy_iff _ _).mp hgroup').1]

/-- A hierarchy of clusters: each level has disjoint clusters, and each cluster lies inside its
parent, one level below it. -/
structure Hierarchy (clusters : List CommunityCluster) : Prop where
  community_nonneg : ∀ c ∈ clusters, 0 ≤ c.community
  community_unique : ∀ c ∈ clusters, ∀ c' ∈ clusters, c.community = c'.community → c = c'
  disjoint : ∀ c ∈ clusters, ∀ c' ∈ clusters, c.level = c'.level → ∀ title ∈ c.titles,
    title ∈ c'.titles → c.community = c'.community
  nested : ∀ c ∈ clusters, c.parent ≠ -1 → ∃ parent ∈ clusters, parent.community = c.parent ∧
    parent.level + 1 = c.level ∧ c.titles ⊆ parent.titles

theorem key_eq_iff {e : HierarchicalCluster} {c : CommunityCluster} :
    e.key = c.key ↔ (e.level : ℤ) = c.level ∧ (e.cluster : ℤ) = c.community ∧
      parentNumber e.parentCluster = c.parent := by
  rw [HierarchicalCluster.key, CommunityCluster.key, toLex_inj, Prod.mk.injEq, toLex_inj,
    Prod.mk.injEq]

/-- Clusters collected from a hierarchical clustering are a hierarchy. -/
theorem Collects.hierarchy {entries : List HierarchicalCluster} {clusters : List CommunityCluster}
    (h : Collects entries clusters) (hentries : HierarchicalClustering entries) :
    Hierarchy clusters := by
  have hentry : ∀ c ∈ clusters, ∃ e ∈ entries, e.key = c.key := by
    intro c hc
    obtain ⟨title, htitle⟩ := List.exists_mem_of_ne_nil _ (h.titles_nonempty c hc)
    obtain ⟨e, he, hkey, -⟩ := (h.mem_titles_iff c hc title).mp htitle
    exact ⟨e, he, hkey⟩
  constructor
  · intro c hc
    obtain ⟨e, -, hkey⟩ := hentry c hc
    obtain ⟨-, hcommunity, -⟩ := key_eq_iff.mp hkey
    omega
  · intro c hc c' hc' hcommunity
    obtain ⟨e, he, hkey⟩ := hentry c hc
    obtain ⟨e', he', hkey'⟩ := hentry c' hc'
    have hcluster : e.cluster = e'.cluster := by
      have h1 := (key_eq_iff.mp hkey).2.1
      have h2 := (key_eq_iff.mp hkey').2.1
      omega
    obtain ⟨hlevel, hparent⟩ := hentries.ids_unique e he e' he' hcluster
    apply h.key_unique c hc c' hc'
    rw [← hkey, ← hkey', HierarchicalCluster.key, HierarchicalCluster.key, hlevel, hcluster,
      hparent]
  · intro c hc c' hc' hlevel title htitle htitle'
    obtain ⟨e, he, hkey, rfl⟩ := (h.mem_titles_iff c hc title).mp htitle
    obtain ⟨e', he', hkey', hnode⟩ := (h.mem_titles_iff c' hc' _).mp htitle'
    obtain ⟨h1, h2, -⟩ := key_eq_iff.mp hkey
    obtain ⟨h1', h2', -⟩ := key_eq_iff.mp hkey'
    have hcluster := hentries.partition e he e' he' (by omega) hnode.symm
    omega
  · intro c hc hparent
    -- the parent of one entry of the cluster is the parent of all of them
    have hup : ∀ e ∈ entries, e.key = c.key → ∃ e' ∈ entries, (e'.cluster : ℤ) = c.parent ∧
        (e'.level : ℤ) + 1 = c.level ∧ e'.node = e.node := by
      intro e he hkey
      obtain ⟨h1, -, h3⟩ := key_eq_iff.mp hkey
      cases hp : e.parentCluster with
      | none =>
        rw [hp] at h3
        exact absurd h3.symm hparent
      | some p =>
        obtain ⟨e', he', hcluster, hlevel, hnode⟩ := hentries.nested e he p hp
        rw [hp] at h3
        have h3 : (p : ℤ) = c.parent := h3
        exact ⟨e', he', by omega, by omega, hnode⟩
    obtain ⟨e, he, hkey⟩ := hentry c hc
    obtain ⟨e', he', hcluster, hlevel, -⟩ := hup e he hkey
    obtain ⟨parent, hmem, hparentKey⟩ := h.exists_cluster e' he'
    obtain ⟨h1, h2, -⟩ := key_eq_iff.mp hparentKey.symm
    refine ⟨parent, hmem, by omega, by omega, fun title htitle => ?_⟩
    obtain ⟨e₁, he₁, hkey₁, rfl⟩ := (h.mem_titles_iff c hc title).mp htitle
    obtain ⟨e₂, he₂, hcluster₂, -, hnode₂⟩ := hup e₁ he₁ hkey₁
    obtain ⟨hl, hp⟩ := hentries.ids_unique e₂ he₂ e' he' (by omega)
    refine (h.mem_titles_iff parent hmem _).mpr ⟨e₂, he₂, ?_, hnode₂⟩
    have hclusterEq : e₂.cluster = e'.cluster := by omega
    rw [hparentKey, HierarchicalCluster.key, HierarchicalCluster.key, hl, hp, hclusterEq]

/-! ### Joining -/

/-- The clusters of a level that have a title. -/
def clustersAt (clusters : List CommunityCluster) (level : ℤ) (title : String) :
    List CommunityCluster :=
  clusters.filter fun c => c.level = level ∧ title ∈ c.titles

theorem lookup_foldl_insert_titles (titles : AList fun _ : ℤ × String => ℤ) (level community : ℤ)
    (names : List String) (key : ℤ × String) :
    (names.foldl (fun titles title => titles.insert (level, title) community) titles).lookup key =
      if key.1 = level ∧ key.2 ∈ names then some community else titles.lookup key := by
  induction names using List.reverseRecOn with
  | nil => simp
  | append_singleton names name ih =>
    rw [List.foldl_append, List.foldl_cons, List.foldl_nil]
    by_cases hkey : key = (level, name)
    · rw [hkey, AList.lookup_insert]
      simp
    · rw [AList.lookup_insert_ne hkey, ih]
      have hname : key.1 = level → key.2 ≠ name := fun h1 h2 => hkey (Prod.ext h1 h2)
      refine if_congr ?_ rfl rfl
      rw [List.mem_append, List.mem_singleton]
      tauto

/-- A title is looked up to the last cluster of the level that has it. -/
theorem lookup_levelTitles (clusters : List CommunityCluster) (level : ℤ) (title : String) :
    (levelTitles clusters).lookup (level, title) =
      (clustersAt clusters level title).getLast?.map CommunityCluster.community := by
  induction clusters using List.reverseRecOn with
  | nil => rfl
  | append_singleton clusters cluster ih =>
    have hstep : levelTitles (clusters ++ [cluster]) = cluster.titles.foldl (fun titles title =>
        titles.insert (cluster.level, title) cluster.community) (levelTitles clusters) := by
      rw [levelTitles, List.foldl_append]
      rfl
    rw [hstep, lookup_foldl_insert_titles, ih, clustersAt, clustersAt, List.filter_append]
    by_cases hmem : level = cluster.level ∧ title ∈ cluster.titles
    · simp [hmem]
    · have hmem' : ¬ (cluster.level = level ∧ title ∈ cluster.titles) := fun h =>
        hmem ⟨h.1.symm, h.2⟩
      simp [hmem, hmem']

variable {cluster : CommunityCluster}

/-- In a hierarchy a title is looked up to the cluster that it belongs to. -/
theorem Hierarchy.lookup_eq_some_iff {clusters : List CommunityCluster} (h : Hierarchy clusters)
    (hcluster : cluster ∈ clusters) (title : String) :
    (levelTitles clusters).lookup (cluster.level, title) = some cluster.community ↔
      title ∈ cluster.titles := by
  rw [lookup_levelTitles, Option.map_eq_some_iff]
  constructor
  · rintro ⟨last, hlast, hcommunity⟩
    have hmem := List.mem_of_getLast? hlast
    rw [clustersAt, List.mem_filter, decide_eq_true_eq] at hmem
    rw [h.community_unique cluster hcluster last hmem.1 hcommunity.symm]
    exact hmem.2.2
  · intro htitle
    have hne : clustersAt clusters cluster.level title ≠ [] := by
      refine List.ne_nil_of_mem (a := cluster) (List.mem_filter.mpr ⟨hcluster, ?_⟩)
      exact decide_eq_true ⟨rfl, htitle⟩
    refine ⟨_, List.getLast?_eq_some_getLast hne, ?_⟩
    have hmem := List.mem_filter.mp (List.getLast_mem hne)
    rw [decide_eq_true_eq] at hmem
    exact h.disjoint _ hmem.1 cluster hcluster hmem.2.1 title hmem.2.2 htitle

/-- The relationships between two nodes of a cluster. -/
def Inside (relationship : RelationshipRow ω) (cluster : CommunityCluster) : Prop :=
  relationship.source ∈ cluster.titles ∧ relationship.target ∈ cluster.titles

theorem Hierarchy.mem_relationshipIds_iff {clusters : List CommunityCluster}
    (h : Hierarchy clusters) (hcluster : cluster ∈ clusters)
    (relationships : List (RelationshipRow ω)) (id : String) :
    id ∈ (intraCommunityRelationships cluster relationships (levelTitles clusters)).1 ↔
      ∃ r ∈ relationships, Inside r cluster ∧ r.id = id := by
  simp only [intraCommunityRelationships, mem_sortedSet, List.mem_map, List.mem_filter,
    decide_eq_true_eq, h.lookup_eq_some_iff hcluster, Inside, and_assoc]

theorem Hierarchy.mem_textUnitIds_iff {clusters : List CommunityCluster}
    (h : Hierarchy clusters) (hcluster : cluster ∈ clusters)
    (relationships : List (RelationshipRow ω)) (id : String) :
    id ∈ (intraCommunityRelationships cluster relationships (levelTitles clusters)).2 ↔
      ∃ r ∈ relationships, Inside r cluster ∧ id ∈ r.textUnitIds := by
  simp only [intraCommunityRelationships, mem_sortedSet, List.mem_flatMap, List.mem_filter,
    decide_eq_true_eq, h.lookup_eq_some_iff hcluster, Inside, and_assoc]

/-! ### Rows -/

variable {rows : List CommunityRow}

section Rows

variable {identity : RunIdentity} {entities : List EntityRow}
  {relationships : List (RelationshipRow ω)} {clusters : List CommunityCluster}

/-- The entity ids that a cluster joins to. -/
def joinedEntityIds (entities : List EntityRow) (cluster : CommunityCluster) : List String :=
  cluster.titles.filterMap fun title => (titleToEntityId entities).lookup title

/-- A row stands for a cluster. -/
structure RowOf (relationships : List (RelationshipRow ω)) (clusters : List CommunityCluster)
    (cluster : CommunityCluster) (row : CommunityRow) : Prop where
  community : row.community = cluster.community
  level : row.level = cluster.level
  parent : row.parent = cluster.parent
  relationshipIds : row.relationshipIds =
    (intraCommunityRelationships cluster relationships (levelTitles clusters)).1
  textUnitIds : row.textUnitIds =
    (intraCommunityRelationships cluster relationships (levelTitles clusters)).2

/-- A cluster has a row when entities and relationships join to it. -/
theorem optionalCommunityRow_ok {index : ℕ}
    {result : Option CommunityRow} (h : optionalCommunityRow identity entities relationships
      (levelTitles clusters) index cluster = .ok result) :
    (∀ row, result = some row → RowOf relationships clusters cluster row ∧
      joinedEntityIds entities cluster ≠ [] ∧ row.relationshipIds ≠ []) ∧
    (result = none → joinedEntityIds entities cluster = [] ∨
      (intraCommunityRelationships cluster relationships (levelTitles clusters)).1 = []) := by
  unfold optionalCommunityRow at h
  dsimp only at h
  split_ifs at h with hentities hrelationships
  · obtain rfl := Except.ok.inj h
    exact ⟨fun row hrow => by simp at hrow, fun _ => Or.inl (List.isEmpty_iff.mp hentities)⟩
  · obtain rfl := Except.ok.inj h
    exact ⟨fun row hrow => by simp at hrow, fun _ => Or.inr (List.isEmpty_iff.mp hrelationships)⟩
  · obtain ⟨size, -, h⟩ := bind_eq_ok.mp h
    obtain rfl := Except.ok.inj h
    refine ⟨fun row hrow => ?_, fun hnone => by simp at hnone⟩
    obtain rfl := Option.some.inj hrow
    refine ⟨⟨rfl, rfl, rfl, rfl, rfl⟩, fun hnil => ?_, fun hnil => ?_⟩
    · exact hentities (List.isEmpty_iff.mpr hnil)
    · exact hrelationships (List.isEmpty_iff.mpr hnil)

/-- The rows are those of the clusters that have one. -/
structure Joins (entities : List EntityRow) (relationships : List (RelationshipRow ω))
    (all clusters : List CommunityCluster) (rows : List CommunityRow) : Prop where
  of_row : ∀ row ∈ rows, ∃ cluster ∈ clusters, RowOf relationships all cluster row ∧
    joinedEntityIds entities cluster ≠ [] ∧ row.relationshipIds ≠ []
  of_cluster : ∀ cluster ∈ clusters, joinedEntityIds entities cluster ≠ [] →
    (intraCommunityRelationships cluster relationships (levelTitles all)).1 ≠ [] →
    ∃ row ∈ rows, RowOf relationships all cluster row

theorem Joins.snoc {all front : List CommunityCluster} {index : ℕ} {result : Option CommunityRow}
    (h : Joins entities relationships all front rows)
    (hrow : optionalCommunityRow identity entities relationships (levelTitles all) index cluster =
      .ok result) :
    Joins entities relationships all (front ++ [cluster]) (rows ++ result.toList) := by
  obtain ⟨hsome, hnone⟩ := optionalCommunityRow_ok hrow
  constructor
  · intro row hmem
    rcases List.mem_append.mp hmem with hmem | hmem
    · obtain ⟨c, hc, hrest⟩ := h.of_row row hmem
      exact ⟨c, List.mem_append_left _ hc, hrest⟩
    · rw [Option.mem_toList] at hmem
      exact ⟨cluster, List.mem_append_right _ (List.mem_singleton.mpr rfl), hsome row hmem⟩
  · intro c hc hentities hrelationships
    rcases List.mem_append.mp hc with hc | hc
    · obtain ⟨row, hmem, hrowOf⟩ := h.of_cluster c hc hentities hrelationships
      exact ⟨row, List.mem_append_left _ hmem, hrowOf⟩
    · obtain rfl := List.mem_singleton.mp hc
      cases hresult : result with
      | none =>
        rcases hnone hresult with hnil | hnil
        · exact absurd hnil hentities
        · exact absurd hnil hrelationships
      | some row =>
        exact ⟨row, List.mem_append_right _ (by simp), (hsome row hresult).1⟩

theorem communityRows_joins
    (h : communityRows identity entities relationships clusters = .ok rows) :
    Joins entities relationships clusters clusters rows := by
  suffices hall : ∀ (rest front : List CommunityCluster) (before rows : List CommunityRow),
      Joins entities relationships clusters front before →
      rest.foldlM (fun rows cluster => do
        let row ← optionalCommunityRow identity entities relationships (levelTitles clusters)
          rows.length cluster
        return rows ++ row.toList) before = .ok rows →
      Joins entities relationships clusters (front ++ rest) rows by
    refine hall clusters [] [] rows ⟨fun row hrow => ?_, fun c hc => ?_⟩ h
    · exact absurd hrow List.not_mem_nil
    · exact absurd hc List.not_mem_nil
  intro rest
  induction rest with
  | nil =>
    intro front before rows hfront hfold
    obtain rfl := Except.ok.inj hfold
    rwa [List.append_nil]
  | cons cluster rest ih =>
    intro front before rows hfront hfold
    rw [List.foldlM_cons] at hfold
    obtain ⟨middle, hmiddle, hfold⟩ := bind_eq_ok.mp hfold
    obtain ⟨result, hresult, hmiddle⟩ := bind_eq_ok.mp hmiddle
    obtain rfl := Except.ok.inj hmiddle
    have hnext := ih (front ++ [cluster]) _ rows (hfront.snoc hresult) hfold
    rwa [List.append_assoc] at hnext

/-- A parent joins to whatever its child joins to. -/
theorem joinedEntityIds_ne_nil_of_subset {child parent : CommunityCluster}
    (hsubset : child.titles ⊆ parent.titles) (h : joinedEntityIds entities child ≠ []) :
    joinedEntityIds entities parent ≠ [] := by
  obtain ⟨id, hid⟩ := List.exists_mem_of_ne_nil _ h
  obtain ⟨title, htitle, hlookup⟩ := List.mem_filterMap.mp hid
  exact List.ne_nil_of_mem (List.mem_filterMap.mpr ⟨title, hsubset htitle, hlookup⟩)

end Rows

theorem lookup_childrenByParent (rows : List CommunityRow) (parent : ℤ) :
    (childrenByParent rows).lookup parent =
      ((groupBy CommunityRow.parent rows).lookup parent).map fun rows =>
        sortedSet (rows.map CommunityRow.community) :=
  lookup_map_snd (fun rows : List CommunityRow => sortedSet (rows.map CommunityRow.community)) _ parent

/-- The children of a community are those that have it as parent. -/
theorem mem_children_iff (rows : List CommunityRow) (parent community : ℤ) :
    community ∈ ((childrenByParent rows).lookup parent).getD [] ↔
      ∃ child ∈ rows, child.parent = parent ∧ child.community = community := by
  rw [lookup_childrenByParent, lookup_groupBy]
  by_cases hnil : rows.filter (fun r => decide (r.parent = parent)) = []
  · rw [hnil]
    simp only [if_true, Option.map_none, Option.getD_none, List.not_mem_nil, false_iff]
    rintro ⟨child, hchild, hparent, -⟩
    exact List.filter_eq_nil_iff.mp hnil child hchild (decide_eq_true hparent)
  · simp only [hnil, if_false, Option.map_some, Option.getD_some, mem_sortedSet, List.mem_map,
      List.mem_filter, decide_eq_true_eq]
    constructor
    · rintro ⟨child, ⟨hchild, hparent⟩, hcommunity⟩
      exact ⟨child, hchild, hparent, hcommunity⟩
    · rintro ⟨child, hchild, hparent, hcommunity⟩
      exact ⟨child, ⟨hchild, hparent⟩, hcommunity⟩

/-! ### The hierarchy -/

/-- The communities form the hierarchy of the clusters they stand for. -/
structure WellFormed (relationships : List (RelationshipRow ω)) (clusters : List CommunityCluster)
    (rows : List CommunityRow) : Prop where
  parent_exists : ∀ row ∈ rows, row.parent ≠ -1 →
    ∃ parent ∈ rows, parent.community = row.parent ∧ parent.level + 1 = row.level
  mem_children : ∀ row ∈ rows, ∀ community, community ∈ row.children ↔
    ∃ child ∈ rows, child.parent = row.community ∧ child.community = community
  references : ∀ row ∈ rows, ∃ cluster ∈ clusters, cluster.community = row.community ∧
    cluster.level = row.level ∧ cluster.parent = row.parent ∧
    (∀ id, id ∈ row.relationshipIds ↔ ∃ r ∈ relationships, Inside r cluster ∧ r.id = id) ∧
    ∀ id, id ∈ row.textUnitIds ↔ ∃ r ∈ relationships, Inside r cluster ∧ id ∈ r.textUnitIds
  nested : ∀ row ∈ rows, ∀ parent ∈ rows, parent.community = row.parent →
    row.relationshipIds ⊆ parent.relationshipIds ∧ row.textUnitIds ⊆ parent.textUnitIds

/-- Joined rows form the hierarchy of their clusters, whatever their children are. -/
theorem Joins.wellFormed {entities : List EntityRow} {relationships : List (RelationshipRow ω)}
    {clusters : List CommunityCluster}
    (h : Joins entities relationships clusters clusters rows) (hclusters : Hierarchy clusters) :
    WellFormed relationships clusters (rows.map fun row =>
      { row with children := ((childrenByParent rows).lookup row.community).getD [] }) := by
  -- the cluster of a row, and what its parent cluster has
  have hreferences : ∀ row ∈ rows, ∃ cluster ∈ clusters, RowOf relationships clusters cluster row ∧
      (∀ id, id ∈ row.relationshipIds ↔ ∃ r ∈ relationships, Inside r cluster ∧ r.id = id) ∧
      ∀ id, id ∈ row.textUnitIds ↔
        ∃ r ∈ relationships, Inside r cluster ∧ id ∈ r.textUnitIds := by
    intro row hrow
    obtain ⟨cluster, hcluster, hrowOf, -⟩ := h.of_row row hrow
    refine ⟨cluster, hcluster, hrowOf, fun id => ?_, fun id => ?_⟩
    · rw [hrowOf.relationshipIds]
      exact hclusters.mem_relationshipIds_iff hcluster relationships id
    · rw [hrowOf.textUnitIds]
      exact hclusters.mem_textUnitIds_iff hcluster relationships id
  constructor
  · intro row' hrow' hparent
    obtain ⟨row, hrow, rfl⟩ := List.mem_map.mp hrow'
    obtain ⟨cluster, hcluster, hrowOf, hentities, hrelationships⟩ := h.of_row row hrow
    have hparent : cluster.parent ≠ -1 := hrowOf.parent ▸ hparent
    obtain ⟨up, hup, hcommunity, hlevel, hsubset⟩ := hclusters.nested cluster hcluster hparent
    obtain ⟨id, hid⟩ := List.exists_mem_of_ne_nil _ hrelationships
    rw [hrowOf.relationshipIds, hclusters.mem_relationshipIds_iff hcluster] at hid
    obtain ⟨r, hr, hinside, rfl⟩ := hid
    have hids : r.id ∈
        (intraCommunityRelationships up relationships (levelTitles clusters)).1 := by
      rw [hclusters.mem_relationshipIds_iff hup]
      exact ⟨r, hr, ⟨hsubset hinside.1, hsubset hinside.2⟩, rfl⟩
    obtain ⟨parent, hmem, hparentOf⟩ := h.of_cluster up hup
      (joinedEntityIds_ne_nil_of_subset hsubset hentities) (List.ne_nil_of_mem hids)
    refine ⟨_, List.mem_map_of_mem hmem, ?_, ?_⟩
    · show parent.community = row.parent
      rw [hparentOf.community, hrowOf.parent, hcommunity]
    · show parent.level + 1 = row.level
      rw [hparentOf.level, hrowOf.level, hlevel]
  · intro row' hrow' community
    obtain ⟨row, hrow, rfl⟩ := List.mem_map.mp hrow'
    refine (mem_children_iff rows row.community community).trans ⟨?_, ?_⟩
    · rintro ⟨child, hchild, hparent, hcommunity⟩
      exact ⟨_, List.mem_map_of_mem hchild, hparent, hcommunity⟩
    · rintro ⟨child', hchild', hparent, hcommunity⟩
      obtain ⟨child, hchild, rfl⟩ := List.mem_map.mp hchild'
      exact ⟨child, hchild, hparent, hcommunity⟩
  · intro row' hrow'
    obtain ⟨row, hrow, rfl⟩ := List.mem_map.mp hrow'
    obtain ⟨cluster, hcluster, hrowOf, hrelationships, htextUnits⟩ := hreferences row hrow
    exact ⟨cluster, hcluster, hrowOf.community.symm, hrowOf.level.symm, hrowOf.parent.symm,
      hrelationships, htextUnits⟩
  · intro row' hrow' parent' hparent' hcommunity
    obtain ⟨row, hrow, rfl⟩ := List.mem_map.mp hrow'
    obtain ⟨parent, hparent, rfl⟩ := List.mem_map.mp hparent'
    have hcommunity : parent.community = row.parent := hcommunity
    obtain ⟨cluster, hcluster, hrowOf, hrelationships, htextUnits⟩ := hreferences row hrow
    obtain ⟨up, hup, hupOf, hupRelationships, hupTextUnits⟩ := hreferences parent hparent
    have hupCommunity : up.community = cluster.parent := by
      rw [← hupOf.community, hcommunity, hrowOf.parent]
    have hne : cluster.parent ≠ -1 := by
      have := hclusters.community_nonneg up hup
      omega
    obtain ⟨up', hup', hcommunity', -, hsubset⟩ := hclusters.nested cluster hcluster hne
    obtain rfl := hclusters.community_unique up hup up' hup' (hupCommunity.trans hcommunity'.symm)
    constructor
    · intro id hid
      obtain ⟨r, hr, hinside, hrid⟩ := (hrelationships id).mp hid
      exact (hupRelationships id).mpr
        ⟨r, hr, ⟨hsubset hinside.1, hsubset hinside.2⟩, hrid⟩
    · intro id hid
      obtain ⟨r, hr, hinside, hrid⟩ := (htextUnits id).mp hid
      exact (hupTextUnits id).mpr ⟨r, hr, ⟨hsubset hinside.1, hsubset hinside.2⟩, hrid⟩

/-- **The communities are a well-formed hierarchy**, of the clusters of the relationship graph. -/
theorem createCommunities_wellFormed {tools : ClusterTools ω} {identity : RunIdentity}
    {entities : List EntityRow} {relationships : List (RelationshipRow ω)}
    {maxClusterSize seed : ℕ} {useLcc : Bool} {rows : List CommunityRow}
    (htools : ∀ edges size seed entries, tools.hierarchicalLeiden edges size seed = .ok entries →
      HierarchicalClustering entries)
    (h : createCommunities tools identity entities relationships maxClusterSize useLcc seed =
      .ok rows) :
    ∃ clusters, clusterGraph tools (relationships.map fun relationship =>
        { source := relationship.source
          target := relationship.target
          weight := relationship.weight }) maxClusterSize useLcc seed = .ok clusters ∧
      WellFormed relationships clusters rows := by
  unfold createCommunities at h
  obtain ⟨clusters, hclusters, h⟩ := bind_eq_ok.mp h
  obtain ⟨joined, hjoined, h⟩ := bind_eq_ok.mp h
  obtain rfl := Except.ok.inj h
  obtain ⟨entries, hentries, hcollects⟩ := clusterGraph_ok hclusters
  exact ⟨clusters, hclusters, (communityRows_joins hjoined).wellFormed
    (hcollects.hierarchy (htools _ _ _ _ hentries))⟩

/-! ### A sample graph -/

/-- Two rings of four nodes with a bridge, each ring split into two pairs on the second level. -/
def sampleClustering : List HierarchicalCluster :=
  [⟨"A", 0, 0, none⟩, ⟨"B", 0, 0, none⟩, ⟨"C", 0, 0, none⟩, ⟨"D", 0, 0, none⟩,
    ⟨"E", 1, 0, none⟩, ⟨"F", 1, 0, none⟩, ⟨"G", 1, 0, none⟩, ⟨"H", 1, 0, none⟩,
    ⟨"A", 2, 1, some 0⟩, ⟨"B", 2, 1, some 0⟩, ⟨"C", 3, 1, some 0⟩, ⟨"D", 3, 1, some 0⟩,
    ⟨"E", 4, 1, some 1⟩, ⟨"F", 4, 1, some 1⟩, ⟨"G", 5, 1, some 1⟩, ⟨"H", 5, 1, some 1⟩]

theorem sampleClustering_hierarchical : HierarchicalClustering sampleClustering where
  ids_unique := by decide
  partition := by decide
  nested := by
    have h : ∀ e ∈ sampleClustering, ∀ parent ∈ e.parentCluster, ∃ e' ∈ sampleClustering,
        e'.cluster = parent ∧ e'.level + 1 = e.level ∧ e'.node = e.node := by decide
    exact fun e he parent hparent => h e he parent hparent

/-- Tools that give the clustering of the sample graph. -/
def sampleTools : ClusterTools ℕ where
  decodeHtmlEntities := id
  toUppercase := id
  hierarchicalLeiden _ _ _ := .ok sampleClustering

def sampleEntities : List EntityRow :=
  ["A", "B", "C", "D", "E", "F", "G", "H"].map fun title => { id := "entity-" ++ title, title }

/-- Weights in tenths. -/
def sampleRelationships : List (RelationshipRow ℕ) :=
  [("A", "B", 10), ("B", "C", 10), ("C", "D", 10), ("D", "A", 10), ("A", "B", 20), ("E", "F", 10),
    ("F", "G", 10), ("G", "H", 10), ("H", "E", 10), ("D", "E", 2)].map
      fun (source, target, weight) =>
        { id := source ++ target, source, target, weight, textUnitIds := [source] }

/-- The sample graph has six communities, in a well-formed hierarchy. -/
theorem createCommunities_wellFormed_sample :
    ∃ rows clusters, rows.map (fun row => (row.community, row.parent, row.children)) =
        [(0, -1, [2, 3]), (1, -1, [4, 5]), (2, 0, []), (3, 0, []), (4, 1, []), (5, 1, [])] ∧
      WellFormed sampleRelationships clusters rows := by
  have htools : ∀ edges size seed entries,
      sampleTools.hierarchicalLeiden edges size seed = .ok entries →
      HierarchicalClustering entries := by
    intro edges size seed entries h
    obtain rfl := Except.ok.inj h
    exact sampleClustering_hierarchical
  have hrows : createCommunities sampleTools ⟨"2026-01-01", fun n => toString n⟩ sampleEntities
      sampleRelationships 3 false 0xDEADBEEF = .ok _ := rfl
  obtain ⟨clusters, -, hwellFormed⟩ := createCommunities_wellFormed htools hrows
  exact ⟨_, clusters, rfl, hwellFormed⟩

end GraphLoom.Communities
