import GraphLoom.Studio.Equiv.Selection

/-!
# Projections are bounded, closed and honest

What is drawn stays within the limits, without repetition and with both ends of each relationship
(`Drawn`).  Beyond the seeds the relationships are a greedy selection of the candidates by priority,
and a projection is marked as truncated when a candidate is left out (`projections_honest`).
-/

namespace GraphLoom.Studio

open Foundation Std ResolutionIndex

variable {snapshot snapshot' : GraphDataSnapshot} {projection : GraphProjection}
  {maxEntities maxRelationships : ℕ}

/-- What is drawn is part of the snapshot, within the limits, without repetition and with both ends
of each relationship; the relationships with other ends are counted. -/
structure Drawn (snapshot : GraphDataSnapshot) (maxEntities maxRelationships : ℕ)
    (projection : GraphProjection) : Prop where
  entities_bounded : projection.entities.length ≤ maxEntities
  relationships_bounded : projection.relationships.length ≤ maxRelationships
  entities_once : (projection.entities.map (·.id)).Nodup
  relationships_once : (projection.relationships.map (·.id)).Nodup
  entities_known : ∀ entity ∈ projection.entities, ∃ row ∈ snapshot.entities,
    entity = .ofDetail row
  relationships_resolved : ∀ relationship ∈ projection.relationships, ∃ resolved,
    ResolvedIn snapshot resolved ∧ relationship = projectionRelationship resolved
  closed : ∀ relationship ∈ projection.relationships,
    relationship.sourceEntityId ∈ projection.entities.map (·.id) ∧
      relationship.targetEntityId ∈ projection.entities.map (·.id)
  unresolved : projection.unresolvedRelationshipCount =
    (snapshot.relationships.filter fun relationship => ¬ Resolvable snapshot relationship).length

/-- The candidates by priority. -/
structure Prioritised (candidate : ResolvedRelationship → Prop)
    (candidates : List ResolvedRelationship) : Prop where
  mem_iff : ∀ resolved, resolved ∈ candidates ↔ candidate resolved
  sorted : candidates.Pairwise PriorTo

/-- The seeds are drawn, then the candidates that fit at their turn, and the entities are those that
these need; the projection is truncated when a candidate is left out. -/
def Shows (maxEntities maxRelationships : ℕ) (start : Finset String)
    (seeds candidates : List ResolvedRelationship) (projection : GraphProjection) : Prop :=
  ∃ taken, GreedyFrom (Fits ends maxEntities maxRelationships start) seeds candidates taken ∧
    projection.relationships = (seeds ++ taken).map projectionRelationship ∧
    (∀ id, id ∈ projection.entities.map (·.id) ↔ id ∈ start ∨ id ∈ covered ends (seeds ++ taken)) ∧
    (projection.truncated ↔ taken ≠ candidates)

/-! ### Entities -/

variable {ids : List String}

theorem projectionEntities_ids (hvalid : snapshot.Valid)
    (hids : ∀ id ∈ ids, ∃ entity ∈ snapshot.entities, entity.id = id) :
    (projectionEntities (new snapshot) ids).map (·.id) = ids := by
  unfold projectionEntities
  rw [List.map_map]
  induction ids with
  | nil => rfl
  | cons id ids ih =>
    obtain ⟨entity, hentity, hid⟩ := hids id List.mem_cons_self
    have hfound := (getElem?_entitiesById hvalid).mpr ⟨hentity, hid⟩
    rw [List.filterMap_cons, hfound]
    dsimp only
    rw [List.map_cons, ih fun other hother => hids other (List.mem_cons_of_mem _ hother)]
    simp [GraphProjectionEntity.ofDetail, hid]

theorem mem_projectionEntities (hvalid : snapshot.Valid) {entity : GraphProjectionEntity}
    (h : entity ∈ projectionEntities (new snapshot) ids) :
    ∃ row ∈ snapshot.entities, entity = .ofDetail row := by
  unfold projectionEntities at h
  obtain ⟨row, hrow, rfl⟩ := List.mem_map.mp h
  obtain ⟨id, -, hfound⟩ := List.mem_filterMap.mp hrow
  exact ⟨row, ((getElem?_entitiesById hvalid).mp hfound).1, rfl⟩

/-- The ends of a resolved relationship are entities. -/
theorem ResolvedIn.ends_known {resolved : ResolvedRelationship}
    (h : ResolvedIn snapshot resolved) {id : String} (hid : id ∈ ends resolved) :
    ∃ entity ∈ snapshot.entities, entity.id = id := by
  obtain ⟨-, source, target, hsource, htarget, hsourceId, htargetId⟩ := h
  rcases mem_ends.mp hid with rfl | rfl
  · exact ⟨source, hsource.mem, hsourceId.symm⟩
  · exact ⟨target, htarget.mem, htargetId.symm⟩

/-- What a projection with these entities and relationships comes to. -/
theorem drawn_of (hvalid : snapshot.Valid) {selected : List ResolvedRelationship}
    (hentities : projection.entities = projectionEntities (new snapshot) ids)
    (hids : ∀ id ∈ ids, ∃ entity ∈ snapshot.entities, entity.id = id) (hnodup : ids.Nodup)
    (hrelationships : projection.relationships = selected.map projectionRelationship)
    (hresolved : ∀ resolved ∈ selected, ResolvedIn snapshot resolved)
    (honce : (selected.map (·.relationship.id)).Nodup)
    (hends : ∀ resolved ∈ selected, ∀ id ∈ ends resolved, id ∈ ids)
    (hcount : projection.unresolvedRelationshipCount =
      (new snapshot).unresolvedRelationshipCount)
    (hmaxEntities : ids.length ≤ maxEntities) (hmaxRelationships : selected.length ≤ maxRelationships) :
    Drawn snapshot maxEntities maxRelationships projection := by
  have hmap : projection.entities.map (·.id) = ids := by
    rw [hentities, projectionEntities_ids hvalid hids]
  constructor
  · rw [← List.length_map (fun entity : GraphProjectionEntity => entity.id), hmap]
    exact hmaxEntities
  · rwa [hrelationships, List.length_map]
  · rwa [hmap]
  · rw [hrelationships, List.map_map]
    exact honce
  · intro entity hentity
    rw [hentities] at hentity
    exact mem_projectionEntities hvalid hentity
  · intro relationship hrelationship
    rw [hrelationships] at hrelationship
    obtain ⟨resolved, hmem, rfl⟩ := List.mem_map.mp hrelationship
    exact ⟨resolved, hresolved resolved hmem, rfl⟩
  · intro relationship hrelationship
    rw [hrelationships] at hrelationship
    obtain ⟨resolved, hmem, rfl⟩ := List.mem_map.mp hrelationship
    rw [hmap]
    exact ⟨hends resolved hmem _ (mem_ends.mpr (.inl rfl)),
      hends resolved hmem _ (mem_ends.mpr (.inr rfl))⟩
  · rw [hcount, unresolvedRelationshipCount_eq]

/-! ### The overview -/

/-- What an overview shows: the resolved relationships by priority, or the entities when there are
none. -/
structure OverviewOf (snapshot : GraphDataSnapshot) (maxEntities maxRelationships : ℕ)
    (projection : GraphProjection) : Prop where
  drawn : Drawn snapshot maxEntities maxRelationships projection
  shows : (∃ resolved, ResolvedIn snapshot resolved) → ∃ candidates,
    Prioritised (ResolvedIn snapshot) candidates ∧
      Shows maxEntities maxRelationships ∅ [] candidates projection
  fallback : (¬ ∃ resolved, ResolvedIn snapshot resolved) →
    ∃ ranked : List GraphEntityDetail,
    ranked.Perm snapshot.entities ∧ ranked.Pairwise EntityPriorTo ∧
      projection.entities = (ranked.take maxEntities).map .ofDetail ∧
      projection.relationships = [] ∧ (projection.truncated ↔ ranked.take maxEntities ≠ ranked)

theorem resolvedRelationshipsOf_eq_nil_iff :
    resolvedRelationshipsOf snapshot = [] ↔ ¬ ∃ resolved, ResolvedIn snapshot resolved := by
  rw [List.eq_nil_iff_forall_not_mem, not_exists]
  simp only [mem_resolvedRelationshipsOf]

/-- The rows of the index are those of the snapshot. -/
theorem entitiesById_perm (hvalid : snapshot.Valid) :
    ((new snapshot).entitiesById.toList.map (·.2)).Perm snapshot.entities := by
  have hkeys : ((new snapshot).entitiesById.toList.map fun entry =>
      entry.2.id).Nodup := by
    have hkey : ∀ entry ∈ (new snapshot).entitiesById.toList,
        entry.2.id = entry.1 := by
      rintro ⟨id, entity⟩ hentry
      rw [ExtTreeMap.mem_toList_iff_getElem?_eq_some, getElem?_entitiesById hvalid] at hentry
      exact hentry.2
    rw [List.map_congr_left hkey]
    unfold List.Nodup
    rw [List.pairwise_map]
    refine ExtTreeMap.distinct_keys_toList.imp ?_
    intro a b hne heq
    rw [heq] at hne
    exact hne ReflCmp.compare_self
  have hnodup : ((new snapshot).entitiesById.toList.map (·.2)).Nodup := by
    rw [← Function.comp_def GraphEntityDetail.id Prod.snd, ← List.map_map] at hkeys
    exact hkeys.of_map
  rw [List.perm_ext_iff_of_nodup hnodup hvalid.entities.of_map]
  intro entity
  rw [List.mem_map]
  constructor
  · rintro ⟨⟨id, _⟩, hentry, rfl⟩
    rw [ExtTreeMap.mem_toList_iff_getElem?_eq_some, getElem?_entitiesById hvalid] at hentry
    exact hentry.1
  · intro hentity
    refine ⟨(entity.id, entity), ?_, rfl⟩
    rw [ExtTreeMap.mem_toList_iff_getElem?_eq_some, getElem?_entitiesById hvalid]
    exact ⟨hentity, rfl⟩

theorem entityFallback_spec (hvalid : snapshot.Valid)
    (hnone : ¬ ∃ resolved, ResolvedIn snapshot resolved) :
    OverviewOf snapshot maxEntities maxRelationships
      (entityFallback (new snapshot) maxEntities) := by
  have hperm : (sortBy compareEntityPriority
      ((new snapshot).entitiesById.toList.map (·.2))).Perm snapshot.entities :=
    sortBy_perm.trans (entitiesById_perm hvalid)
  have hnodup := ((entitiesById_perm hvalid).map (·.id)).nodup_iff.mpr hvalid.entities
  have hranked : (sortBy compareEntityPriority
      ((new snapshot).entitiesById.toList.map (·.2))).Pairwise EntityPriorTo := by
    rw [compareEntityPriority_eq]
    exact sortBy_precedes hnodup
  refine ⟨?_, fun h => absurd h hnone, fun _ => ⟨_, hperm, hranked, rfl, rfl, ?_⟩⟩
  · have hids : ((sortBy compareEntityPriority
        ((new snapshot).entitiesById.toList.map (·.2))).map (·.id)).Nodup :=
      (hperm.map _).nodup_iff.mpr hvalid.entities
    constructor
    · show (List.map _ (List.take _ _)).length ≤ _
      rw [List.length_map, List.length_take]
      exact Nat.min_le_left _ _
    · exact Nat.zero_le _
    · show (List.map _ (List.map _ (List.take _ _))).Nodup
      rw [List.map_map]
      exact hids.sublist ((List.take_sublist _ _).map _)
    · exact List.nodup_nil
    · intro entity hentity
      obtain ⟨row, hrow, rfl⟩ := List.mem_map.mp hentity
      exact ⟨row, hperm.mem_iff.mp (List.mem_of_mem_take hrow), rfl⟩
    · rintro relationship ⟨⟩
    · rintro relationship ⟨⟩
    · exact unresolvedRelationshipCount_eq
  · show decide (_ < _) = true ↔ _
    rw [decide_eq_true_eq, ne_eq, List.take_eq_self_iff, Nat.not_le]

theorem overview_spec (hvalid : snapshot.Valid) (maxEntities maxRelationships : ℕ) :
    OverviewOf snapshot maxEntities maxRelationships
      (overview snapshot maxEntities maxRelationships) := by
  unfold overview
  dsimp only
  by_cases hnone : (new snapshot).resolvedRelationships = []
  · rw [if_pos hnone]
    exact entityFallback_spec hvalid (resolvedRelationshipsOf_eq_nil_iff.mp hnone)
  · rw [if_neg hnone]
    have hexists : ∃ resolved, ResolvedIn snapshot resolved :=
      not_not.mp fun h => hnone (resolvedRelationshipsOf_eq_nil_iff.mpr h)
    have hstart : pointsOf (∅ : ExtTreeSet String) = ∅ ∪ covered ends [] := by simp
    obtain ⟨taken, hgreedy, hselected, hcovered, htruncated⟩ :=
      @foldl_add _ maxEntities maxRelationships id ∅
        (new snapshot).resolvedRelationships ⟨∅, [], false⟩ hstart
    obtain ⟨s, hs⟩ : ∃ s, (new snapshot).resolvedRelationships.foldl
      (Selection.add maxEntities maxRelationships id) ⟨∅, [], false⟩ = s := ⟨_, rfl⟩
    rw [hs] at hselected hcovered htruncated ⊢
    rw [List.nil_append] at hselected hcovered
    rw [Finset.empty_union] at hcovered
    have hresolved : ∀ resolved ∈ taken, ResolvedIn snapshot resolved := fun resolved hmem =>
      mem_resolvedRelationshipsOf.mp (hgreedy.sublist.subset hmem)
    have hmem : ∀ id, id ∈ s.entityIds.toList ↔ id ∈ covered ends taken := by
      intro id
      rw [ExtTreeSet.mem_toList, ← mem_pointsOf, hcovered]
      rfl
    have hknown : ∀ id ∈ s.entityIds.toList, ∃ entity ∈ snapshot.entities, entity.id = id := by
      intro id hid
      obtain ⟨resolved, hresolved', hend⟩ := mem_covered.mp ((hmem id).mp hid)
      exact (hresolved resolved hresolved').ends_known hend
    obtain ⟨hmaxRelationships, hmaxEntities⟩ := hgreedy.bounded (Nat.zero_le _) (Nat.zero_le _)
    rw [List.nil_append] at hmaxRelationships hmaxEntities
    rw [Finset.empty_union] at hmaxEntities
    refine ⟨?_, fun _ => ?_, fun h => absurd hexists h⟩
    · refine drawn_of hvalid rfl hknown (toList_nodup _) (congrArg _ hselected) hresolved
        ((resolvedRelationshipsOf_nodup hvalid).sublist (hgreedy.sublist.map _)) ?_ rfl ?_
        hmaxRelationships
      · intro resolved hmem' id hend
        exact (hmem id).mpr (mem_covered.mpr ⟨resolved, hmem', hend⟩)
      · rw [ExtTreeSet.length_toList, ← card_pointsOf, hcovered]
        exact hmaxEntities
    · refine ⟨_, ⟨fun _ => mem_resolvedRelationshipsOf, resolvedRelationshipsOf_priorTo hvalid⟩,
        taken, hgreedy, congrArg _ hselected, ?_, ?_⟩
      · intro id
        rw [projectionEntities_ids hvalid hknown, hmem, List.nil_append]
        simp
      · exact htruncated.trans (or_iff_right Bool.false_ne_true)

/-! ### Subgraphs -/

/-- What a subgraph shows. -/
structure SubgraphOf (snapshot : GraphDataSnapshot) (entityIds relationshipIds : List String)
    (depth maxEntities maxRelationships : ℕ) (projection : GraphProjection) : Prop where
  drawn : Drawn snapshot maxEntities maxRelationships projection
  seeds_iff : ∀ id, id ∈ projection.seedEntityIds ↔ SeedEntity snapshot entityIds relationshipIds id
  seeds_sorted : projection.seedEntityIds.Pairwise (· < ·)
  seedRelationships_iff : ∀ id, id ∈ projection.seedRelationshipIds ↔
    SeedRelationship snapshot relationshipIds id
  seedRelationships_sorted : projection.seedRelationshipIds.Pairwise (· < ·)
  missing_iff : ∀ id, id ∈ projection.missingEntityIds ↔
    id ∈ entityIds ∧ ∀ entity ∈ snapshot.entities, entity.id ≠ id
  missing_sorted : projection.missingEntityIds.Pairwise (· < ·)
  missingRelationship_iff : ∀ id, id ∈ projection.missingRelationshipIds ↔
    id ∈ relationshipIds ∧ ∀ relationship ∈ snapshot.relationships, relationship.id ≠ id
  missingRelationship_sorted : projection.missingRelationshipIds.Pairwise (· < ·)
  unresolved_iff : ∀ id, id ∈ projection.unresolvedRelationshipIds ↔ id ∈ relationshipIds ∧
    ∃ relationship ∈ snapshot.relationships, relationship.id = id ∧
      ¬ Resolvable snapshot relationship
  unresolved_sorted : projection.unresolvedRelationshipIds.Pairwise (· < ·)
  entityPartition : ∀ id ∈ entityIds,
    (id ∈ projection.missingEntityIds ↔ id ∉ projection.seedEntityIds)
  partition : (projection.missingRelationshipIds ++ (projection.unresolvedRelationshipIds ++
    projection.seedRelationshipIds)).Perm relationshipIds.dedup
  shows : ∃ seeds candidates, seeds.map (·.relationship.id) = projection.seedRelationshipIds ∧
    (∀ resolved ∈ seeds, ResolvedIn snapshot resolved) ∧
    Prioritised (fun resolved => depth ≠ 0 ∧ ResolvedIn snapshot resolved ∧
      resolved.relationship.id ∉ relationshipIds ∧
      ∃ id ∈ ends resolved, id ∈ projection.seedEntityIds) candidates ∧
    Shows maxEntities maxRelationships projection.seedEntityIds.toFinset seeds candidates projection

/-- Every requested relationship is missing, unresolved or a seed, and only one of them. -/
theorem partition_of {missing unresolved seeds relationshipIds : List String}
    (hmissing : ∀ id, id ∈ missing ↔
      id ∈ relationshipIds ∧ ∀ relationship ∈ snapshot.relationships, relationship.id ≠ id)
    (hunresolved : ∀ id, id ∈ unresolved ↔ id ∈ relationshipIds ∧
      ∃ relationship ∈ snapshot.relationships, relationship.id = id ∧
        ¬ Resolvable snapshot relationship)
    (hseeds : ∀ id, id ∈ seeds ↔ SeedRelationship snapshot relationshipIds id)
    (hvalid : snapshot.Valid) (hmissingNodup : missing.Nodup) (hunresolvedNodup : unresolved.Nodup)
    (hseedsNodup : seeds.Nodup) :
    (missing ++ (unresolved ++ seeds)).Perm relationshipIds.dedup := by
  have hdisjoint : ∀ id ∈ unresolved, id ∉ seeds := by
    intro id hid hseed
    obtain ⟨-, relationship, hmem, rfl, hnot⟩ := (hunresolved id).mp hid
    obtain ⟨-, resolved, hresolved, heq⟩ := (hseeds _).mp hseed
    rw [resolvable_iff hmem] at hnot
    exact hnot ⟨resolved, hresolved,
      List.inj_on_of_nodup_map hvalid.relationships hresolved.1 hmem heq⟩
  have hdisjoint' : ∀ id ∈ missing, id ∉ unresolved ++ seeds := by
    intro id hid hother
    obtain ⟨-, hnone⟩ := (hmissing id).mp hid
    rcases List.mem_append.mp hother with hother | hother
    · obtain ⟨-, relationship, hmem, heq, -⟩ := (hunresolved id).mp hother
      exact hnone relationship hmem heq
    · obtain ⟨-, resolved, hresolved, heq⟩ := (hseeds id).mp hother
      exact hnone _ hresolved.1 heq
  have hnodup : (missing ++ (unresolved ++ seeds)).Nodup := by
    rw [List.nodup_append', List.nodup_append']
    exact ⟨hmissingNodup, ⟨hunresolvedNodup, hseedsNodup, hdisjoint⟩, hdisjoint'⟩
  rw [List.perm_ext_iff_of_nodup hnodup (List.nodup_dedup _)]
  intro id
  rw [List.mem_dedup, List.mem_append, List.mem_append, hmissing, hunresolved, hseeds]
  constructor
  · rintro (⟨hid, -⟩ | ⟨hid, -⟩ | ⟨hid, -⟩) <;> exact hid
  · intro hid
    by_cases hrow : ∃ relationship ∈ snapshot.relationships, relationship.id = id
    · obtain ⟨relationship, hmem, rfl⟩ := hrow
      by_cases hresolvable : Resolvable snapshot relationship
      · obtain ⟨resolved, hresolved, rfl⟩ := (resolvable_iff hmem).mp hresolvable
        exact .inr (.inr ⟨hid, resolved, hresolved, rfl⟩)
      · exact .inr (.inl ⟨hid, relationship, hmem, rfl, hresolvable⟩)
    · exact .inl ⟨hid, fun relationship hmem heq => hrow ⟨relationship, hmem, heq⟩⟩

section Expansion

variable {entityIds relationshipIds : List String}
  {seeds : SeedSelection (ResolutionIndex.new snapshot)}

theorem mem_seedRelationshipIds (hseeds : SeedsOf snapshot entityIds relationshipIds seeds)
    {id : String} :
    id ∈ (seeds.relationshipIndexes.map fun position =>
      (resolvedAt snapshot position).relationship.id) ↔
      SeedRelationship snapshot relationshipIds id := by
  unfold SeedRelationship
  rw [List.mem_map]
  constructor
  · rintro ⟨position, hposition, rfl⟩
    exact ⟨(hseeds.position_iff position).mp hposition, _, resolvedIn_position position, rfl⟩
  · rintro ⟨hid, resolved, hresolved, rfl⟩
    obtain ⟨position, rfl⟩ := hresolved.exists_position
    exact ⟨position, (hseeds.position_iff position).mpr hid, rfl⟩

/-- The seeds need no other entities. -/
theorem covered_seeds (hseeds : SeedsOf snapshot entityIds relationshipIds seeds) :
    pointsOf seeds.entityIds = pointsOf seeds.entityIds ∪ covered
      (fun position => ends (resolvedAt snapshot position))
      seeds.relationshipIndexes := by
  refine (Finset.union_eq_left.mpr ?_).symm
  intro id hid
  obtain ⟨position, hposition, hend⟩ := mem_covered.mp hid
  rw [mem_pointsOf, hseeds.entity_iff]
  exact .inr ⟨_, resolvedIn_position position, (hseeds.position_iff position).mp hposition, hend⟩

/-- The candidates of a subgraph. -/
def IsCandidate (snapshot : GraphDataSnapshot) (relationshipIds : List String) (depth : ℕ)
    (seeds : SeedSelection (ResolutionIndex.new snapshot)) (resolved : ResolvedRelationship) : Prop :=
  depth ≠ 0 ∧ ResolvedIn snapshot resolved ∧ resolved.relationship.id ∉ relationshipIds ∧
    ∃ id ∈ ends resolved, id ∈ seeds.entityIds

theorem expandSubgraph_spec (hvalid : snapshot.Valid)
    (hseeds : SeedsOf snapshot entityIds relationshipIds seeds) (depth : ℕ) {s}
    (hs : expandSubgraph (new snapshot) seeds depth maxEntities maxRelationships =
      s) :
    ∃ candidates taken, Prioritised (IsCandidate snapshot relationshipIds depth seeds) candidates ∧
      GreedyFrom (Fits ends maxEntities maxRelationships (pointsOf seeds.entityIds))
        (seeds.relationshipIndexes.map (resolvedAt snapshot)) candidates taken ∧
      s.selected.map (resolvedAt snapshot) =
        seeds.relationshipIndexes.map (resolvedAt snapshot) ++ taken ∧
      pointsOf s.entityIds = pointsOf seeds.entityIds ∪ covered ends
        (seeds.relationshipIndexes.map (resolvedAt snapshot) ++ taken) ∧
      (s.truncated ↔ taken ≠ candidates) := by
  unfold expandSubgraph at hs
  by_cases hdepth : depth = 0
  · rw [if_pos hdepth] at hs
    obtain rfl := hs
    refine ⟨[], [], ⟨fun resolved => ?_, .nil⟩, .done, by simp, ?_, by simp⟩
    · unfold IsCandidate
      simp [hdepth]
    · rw [List.append_nil, covered_map]
      exact covered_seeds hseeds
  · rw [if_neg hdepth] at hs
    replace hs : (expansionCandidates (new snapshot) seeds).foldl
      (Selection.add maxEntities maxRelationships (resolvedAt snapshot))
      ⟨seeds.entityIds, seeds.relationshipIndexes, false⟩ = s := hs
    obtain ⟨taken, hgreedy, hselected, hcovered, htruncated⟩ :=
      @foldl_add _ maxEntities maxRelationships (resolvedAt snapshot) (pointsOf seeds.entityIds)
        (expansionCandidates (new snapshot) seeds)
        ⟨seeds.entityIds, seeds.relationshipIndexes, false⟩ (covered_seeds hseeds)
    rw [hs] at hselected hcovered htruncated
    refine ⟨(expansionCandidates (new snapshot) seeds).map (resolvedAt snapshot),
      taken.map (resolvedAt snapshot), ⟨fun resolved => ?_, expansionCandidates_priorTo hvalid seeds⟩,
      hgreedy.map fun _ _ => fits_map, ?_, ?_, ?_⟩
    · unfold IsCandidate
      rw [List.mem_map]
      constructor
      · rintro ⟨position, hposition, rfl⟩
        obtain ⟨hnot, hends⟩ := (mem_expansionCandidates hvalid hseeds).mp hposition
        exact ⟨hdepth, resolvedIn_position position, hnot, hends⟩
      · rintro ⟨-, hresolved, hnot, hends⟩
        obtain ⟨position, rfl⟩ := hresolved.exists_position
        exact ⟨position, (mem_expansionCandidates hvalid hseeds).mpr ⟨hnot, hends⟩, rfl⟩
    · rw [hselected, List.map_append]
    · rw [hcovered, ← List.map_append, covered_map]
    · have hinjective : Function.Injective (resolvedAt snapshot) := fun _ _ heq =>
        position_eq hvalid (congrArg (·.relationship.id) heq)
      rw [ne_eq, hinjective.list_map.eq_iff]
      exact htruncated.trans (or_iff_right Bool.false_ne_true)

/-- The identifiers of `old` before the other ones of `new`. -/
def oldFirst (old new : ExtTreeSet String compare) : List String :=
  old.toList ++ new.toList.filter (· ∉ old)

section OldFirst

variable {old new : ExtTreeSet String compare} {id : String}

theorem mem_oldFirst (h : ∀ id ∈ old, id ∈ new) : id ∈ oldFirst old new ↔ id ∈ new := by
  rw [oldFirst, List.mem_append, List.mem_filter, ExtTreeSet.mem_toList, ExtTreeSet.mem_toList,
    decide_eq_true_eq]
  have hold := h id
  tauto

theorem oldFirst_nodup : (oldFirst old new).Nodup := by
  rw [oldFirst, List.nodup_append']
  refine ⟨toList_nodup _, (toList_nodup _).filter _, fun id hid hid' => ?_⟩
  rw [List.mem_filter, decide_eq_true_eq] at hid'
  exact hid'.2 (ExtTreeSet.mem_toList.mp hid)

theorem length_oldFirst (h : ∀ id ∈ old, id ∈ new) :
    (oldFirst old new).length = (pointsOf new).card := by
  rw [← List.toFinset_card_of_nodup oldFirst_nodup]
  congr 1
  ext id
  rw [List.mem_toFinset, mem_oldFirst h, mem_pointsOf]

end OldFirst

/-- What the resolved seeds and the candidates around them come to. -/
theorem subgraphOf_of (hvalid : snapshot.Valid)
    (hseeds : SeedsOf snapshot entityIds relationshipIds seeds) {depth : ℕ}
    (hentities : seeds.entityIds.size ≤ maxEntities)
    (hrelationships : seeds.relationshipIndexes.length ≤ maxRelationships) {s}
    (hs : expandSubgraph (new snapshot) seeds depth maxEntities maxRelationships =
      s) :
    SubgraphOf snapshot entityIds relationshipIds depth maxEntities maxRelationships
      { entities := projectionEntities (new snapshot) seeds.entityIds.toList ++
          projectionEntities (new snapshot)
            (s.entityIds.toList.filter (· ∉ seeds.entityIds))
        relationships := s.selected.map fun position =>
          projectionRelationship (resolvedAt snapshot position)
        seedEntityIds := seeds.entityIds.toList
        seedRelationshipIds := seeds.relationshipIndexes.map fun position =>
          (resolvedAt snapshot position).relationship.id
        missingEntityIds := seeds.missingEntityIds
        missingRelationshipIds := seeds.missingRelationshipIds
        unresolvedRelationshipIds := seeds.unresolvedRelationshipIds
        unresolvedRelationshipCount :=
          (new snapshot).unresolvedRelationshipCount
        truncated := s.truncated } := by
  obtain ⟨candidates, taken, hcandidates, hgreedy, hselected, hcovered, htruncated⟩ :=
    expandSubgraph_spec hvalid hseeds depth hs
  have hseedIds : (seeds.relationshipIndexes.map (resolvedAt snapshot)).map (·.relationship.id) =
      seeds.relationshipIndexes.map fun position =>
        (resolvedAt snapshot position).relationship.id := by
    rw [List.map_map]
    rfl
  have hseedRows : ∀ resolved ∈ seeds.relationshipIndexes.map (resolvedAt snapshot),
      ResolvedIn snapshot resolved ∧ resolved.relationship.id ∈ relationshipIds := by
    intro resolved hmem
    obtain ⟨position, hposition, rfl⟩ := List.mem_map.mp hmem
    exact ⟨resolvedIn_position position, (hseeds.position_iff position).mp hposition⟩
  have hrelationships' : s.selected.map (fun position =>
      projectionRelationship (resolvedAt snapshot position)) =
        (seeds.relationshipIndexes.map (resolvedAt snapshot) ++ taken).map
          projectionRelationship := by
    rw [← hselected, List.map_map]
    rfl
  have hbounded := hgreedy.bounded (by rwa [List.length_map]) (by
    rw [covered_map, ← covered_seeds hseeds, card_pointsOf]
    exact hentities)
  -- from here on the seeds are relationships rather than positions
  generalize seeds.relationshipIndexes.map (resolvedAt snapshot) = rows at *
  have hresolved : ∀ resolved ∈ rows ++ taken, ResolvedIn snapshot resolved := by
    intro resolved hmem
    rcases List.mem_append.mp hmem with hmem | hmem
    · exact (hseedRows resolved hmem).1
    · exact ((hcandidates.mem_iff resolved).mp (hgreedy.sublist.subset hmem)).2.1
  have honce : ((rows ++ taken).map (·.relationship.id)).Nodup := by
    rw [List.map_append, List.nodup_append']
    refine ⟨?_, ?_, ?_⟩
    · rw [hseedIds]
      exact nodup_of_sorted hseeds.positions_sorted
    · refine ((nodup_of_priorTo hcandidates.sorted).sublist hgreedy.sublist).map_on ?_
      intro resolved hmem resolved' hmem' heq
      exact (hresolved resolved (List.mem_append_right _ hmem)).unique hvalid
        (hresolved resolved' (List.mem_append_right _ hmem')) heq
    · intro id hid hid'
      obtain ⟨resolved, hmem, rfl⟩ := List.mem_map.mp hid
      obtain ⟨resolved', hmem', heq⟩ := List.mem_map.mp hid'
      refine ((hcandidates.mem_iff resolved').mp (hgreedy.sublist.subset hmem')).2.2.1 ?_
      rw [heq]
      exact (hseedRows resolved hmem).2
  have hmemSelected : ∀ id, id ∈ s.entityIds ↔
      id ∈ seeds.entityIds ∨ id ∈ covered ends (rows ++ taken) := by
    intro id
    rw [← mem_pointsOf, hcovered, Finset.mem_union, mem_pointsOf]
  have hold : ∀ id ∈ seeds.entityIds, id ∈ s.entityIds := fun id hid =>
    (hmemSelected id).mpr (.inl hid)
  have hknown : ∀ id ∈ oldFirst seeds.entityIds s.entityIds,
      ∃ entity ∈ snapshot.entities, entity.id = id := by
    intro id hid
    rcases (hmemSelected id).mp ((mem_oldFirst hold).mp hid) with hid | hid
    · rcases (hseeds.entity_iff id).mp hid with ⟨-, hentity⟩ | ⟨resolved, hresolved, -, hend⟩
      · exact hentity
      · exact hresolved.ends_known hend
    · obtain ⟨resolved, hrow, hend⟩ := mem_covered.mp hid
      exact (hresolved resolved hrow).ends_known hend
  have hlength : (oldFirst seeds.entityIds s.entityIds).length ≤ maxEntities := by
    rw [length_oldFirst hold, hcovered]
    exact hbounded.2
  have hentities' : projectionEntities (new snapshot) seeds.entityIds.toList ++
      projectionEntities (new snapshot)
        (s.entityIds.toList.filter (· ∉ seeds.entityIds)) =
      projectionEntities (new snapshot)
        (oldFirst seeds.entityIds s.entityIds) := by
    unfold projectionEntities oldFirst
    rw [List.filterMap_append, List.map_append]
  constructor
  · refine drawn_of hvalid hentities' hknown oldFirst_nodup hrelationships' hresolved honce ?_ rfl
      hlength hbounded.1
    intro resolved hrow id hend
    rw [mem_oldFirst hold, hmemSelected]
    exact .inr (mem_covered.mpr ⟨resolved, hrow, hend⟩)
  · intro id
    rw [← hseeds.entity_iff]
    exact ExtTreeSet.mem_toList
  · exact toList_sorted _
  · exact fun id => mem_seedRelationshipIds hseeds
  · exact hseeds.positions_sorted
  · exact hseeds.missing_iff
  · exact hseeds.missing_sorted
  · exact hseeds.missingRelationship_iff
  · exact hseeds.missingRelationship_sorted
  · exact hseeds.unresolved_iff
  · exact hseeds.unresolved_sorted
  · intro id hid
    dsimp only
    rw [hseeds.missing_iff, ExtTreeSet.mem_toList, hseeds.entity_iff]
    constructor
    · rintro ⟨-, hnone⟩ (⟨-, entity, hentity, heq⟩ | ⟨resolved, hresolved, -, hend⟩)
      · exact hnone entity hentity heq
      · obtain ⟨entity, hentity, heq⟩ := hresolved.ends_known hend
        exact hnone entity hentity heq
    · intro hnot
      exact ⟨hid, fun entity hentity heq => hnot (.inl ⟨hid, entity, hentity, heq⟩)⟩
  · exact partition_of hseeds.missingRelationship_iff hseeds.unresolved_iff
      (fun id => mem_seedRelationshipIds hseeds) hvalid
      (nodup_of_sorted hseeds.missingRelationship_sorted) (nodup_of_sorted hseeds.unresolved_sorted)
      (nodup_of_sorted hseeds.positions_sorted)
  · refine ⟨rows, candidates, hseedIds, fun resolved hrow => (hseedRows resolved hrow).1,
      ⟨fun resolved => ?_, hcandidates.sorted⟩, taken, hgreedy, hrelationships', ?_, htruncated⟩
    · rw [hcandidates.mem_iff]
      unfold IsCandidate
      simp only [ExtTreeSet.mem_toList]
    · intro id
      dsimp only
      rw [hentities', projectionEntities_ids hvalid hknown, mem_oldFirst hold, hmemSelected,
        List.mem_toFinset, ExtTreeSet.mem_toList]

end Expansion

/-- A request for a subgraph fails when its seeds exceed a limit, and only then. -/
def SubgraphAnswer (snapshot : GraphDataSnapshot) (entityIds relationshipIds : List String)
    (depth maxEntities maxRelationships : ℕ)
    (answer : Except GraphProjectionError GraphProjection) : Prop :=
  ∃ seedEntities seedRelationships : Finset String,
    (∀ id, id ∈ seedEntities ↔ SeedEntity snapshot entityIds relationshipIds id) ∧
    (∀ id, id ∈ seedRelationships ↔ SeedRelationship snapshot relationshipIds id) ∧
    if maxEntities < seedEntities.card ∨ maxRelationships < seedRelationships.card then
      answer = .error .seedLimitsTooSmall
    else ∃ projection, answer = .ok projection ∧ SubgraphOf snapshot entityIds relationshipIds depth
      maxEntities maxRelationships projection

theorem subgraph_spec (hvalid : snapshot.Valid) (entityIds relationshipIds : List String)
    (depth maxEntities maxRelationships : ℕ) :
    SubgraphAnswer snapshot entityIds relationshipIds depth maxEntities maxRelationships
      (subgraph snapshot entityIds relationshipIds depth maxEntities maxRelationships) := by
  have hseeds := resolveSeeds_spec hvalid entityIds relationshipIds
  unfold subgraph projectSubgraph
  dsimp only
  generalize resolveSeeds (new snapshot) entityIds relationshipIds = seeds at *
  refine ⟨pointsOf seeds.entityIds, (seeds.relationshipIndexes.map fun position =>
    (resolvedAt snapshot position).relationship.id).toFinset,
    ?_, ?_, ?_⟩
  · intro id
    rw [mem_pointsOf, hseeds.entity_iff]
  · intro id
    rw [List.mem_toFinset, mem_seedRelationshipIds hseeds]
  · have hcard : (seeds.relationshipIndexes.map fun position =>
        (resolvedAt snapshot position).relationship.id
        ).toFinset.card = seeds.relationshipIndexes.length := by
      rw [List.toFinset_card_of_nodup, List.length_map]
      exact nodup_of_sorted hseeds.positions_sorted
    rw [card_pointsOf, hcard]
    split_ifs with hlimits
    · rfl
    · rw [not_or, Nat.not_lt, Nat.not_lt] at hlimits
      exact ⟨_, rfl, subgraphOf_of hvalid hseeds hlimits.1 hlimits.2 rfl⟩

/-- The requested identifiers matter as sets. -/
theorem resolveSeeds_congr (index : ResolutionIndex)
    {entityIds entityIds' relationshipIds relationshipIds' : List String}
    (hentities : ∀ id, id ∈ entityIds ↔ id ∈ entityIds')
    (hrelationships : ∀ id, id ∈ relationshipIds ↔ id ∈ relationshipIds') :
    resolveSeeds index entityIds relationshipIds =
      resolveSeeds index entityIds' relationshipIds' := by
  have hset : ∀ {ids ids' : List String}, (∀ id, id ∈ ids ↔ id ∈ ids') →
      ExtTreeSet.ofList ids compare = ExtTreeSet.ofList ids' compare := by
    intro ids ids' h
    apply ExtTreeSet.ext_mem
    intro id
    rw [mem_ofList, mem_ofList, h]
  unfold resolveSeeds
  dsimp only
  rw [hset hentities, hset hrelationships]

/-! ### Projections -/

/-- **Projections are bounded, closed and honest**, and the order of the rows and of the requested
identifiers does not matter to them. -/
theorem projections_honest (hvalid : snapshot.Valid) :
    (∀ maxEntities maxRelationships, OverviewOf snapshot maxEntities maxRelationships
      (overview snapshot maxEntities maxRelationships)) ∧
    (∀ entityIds relationshipIds depth maxEntities maxRelationships,
      SubgraphAnswer snapshot entityIds relationshipIds depth maxEntities maxRelationships
        (subgraph snapshot entityIds relationshipIds depth maxEntities maxRelationships)) ∧
    ∀ snapshot', snapshot.SameRows snapshot' →
      (∀ maxEntities maxRelationships, overview snapshot' maxEntities maxRelationships =
        overview snapshot maxEntities maxRelationships) ∧
      ∀ entityIds entityIds' relationshipIds relationshipIds' depth maxEntities maxRelationships,
        (∀ id, id ∈ entityIds ↔ id ∈ entityIds') →
        (∀ id, id ∈ relationshipIds ↔ id ∈ relationshipIds') →
        subgraph snapshot' entityIds' relationshipIds' depth maxEntities maxRelationships =
          subgraph snapshot entityIds relationshipIds depth maxEntities maxRelationships := by
  refine ⟨overview_spec hvalid, subgraph_spec hvalid, ?_⟩
  intro snapshot' hrows
  refine ⟨fun maxEntities maxRelationships => ?_, ?_⟩
  · unfold overview
    rw [index_sameRows hvalid hrows]
  · intro entityIds entityIds' relationshipIds relationshipIds' depth maxEntities maxRelationships
      hentities hrelationships
    have hindex := index_sameRows hvalid hrows
    unfold subgraph
    dsimp only
    rw [← hindex, resolveSeeds_congr _ hentities hrelationships]

/-- ALPHA has two relationships. -/
def forkedGraph : GraphDataSnapshot :=
  { sampleGraph with
    relationships := [⟨"r-1", none, "ALPHA", "BETA", none, none⟩,
      ⟨"r-2", none, "GAMMA", "ALPHA", none, none⟩, ⟨"r-3", none, "BETA", "GAMMA", none, none⟩] }

/-- One end of them does not fit. -/
theorem projections_honest_sample : ∃ projection,
    subgraph forkedGraph ["e-1"] [] 2 2 2 = .ok projection ∧
      SubgraphOf forkedGraph ["e-1"] [] 2 2 2 projection := by
  have hvalid : forkedGraph.Valid := GraphDataSnapshot.validate_iff.mp (by decide +kernel)
  obtain ⟨-, hsubgraph, -⟩ := projections_honest hvalid
  obtain ⟨entities, relationships, hentities, hrelationships, h⟩ := hsubgraph ["e-1"] [] 2 2 2
  have hone : entities ⊆ {"e-1"} := by
    intro id hid
    rcases (hentities id).mp hid with ⟨hmem, -⟩ | ⟨_, -, hmem, -⟩
    · exact Finset.mem_singleton.mpr (List.mem_singleton.mp hmem)
    · cases hmem
  have hnone : relationships = ∅ :=
    Finset.eq_empty_of_forall_notMem fun id hid => List.not_mem_nil ((hrelationships id).mp hid).1
  have hcard : entities.card ≤ 1 := Finset.card_le_card hone
  rw [hnone, Finset.card_empty, if_neg (by omega)] at h
  exact h

end GraphLoom.Studio
