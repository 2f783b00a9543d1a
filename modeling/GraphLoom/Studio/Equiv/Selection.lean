import GraphLoom.Foundation.Greedy
import GraphLoom.Studio.Equiv.Resolution

/-!
# Selecting relationships

The loops of a projection are greedy selections (`foldl_add`).  The requested identifiers are sorted
into seeds, missing and unresolved ones (`resolveSeeds_spec`), and the candidates around the seeds
are the resolved relationships with a seed at an end (`mem_expansionCandidates`).
-/

namespace GraphLoom.Studio

open Foundation Std ResolutionIndex SeedSelection

variable {α : Type} {snapshot snapshot' : GraphDataSnapshot}

/-! ### The loops -/

/-- The entities that a relationship needs. -/
def ends (resolved : ResolvedRelationship) : Finset String :=
  {resolved.sourceEntityId, resolved.targetEntityId}

variable {id : String}

@[simp]
theorem mem_ends {resolved : ResolvedRelationship} :
    id ∈ ends resolved ↔ resolved.sourceEntityId = id ∨ resolved.targetEntityId = id := by
  unfold ends
  rw [Finset.mem_insert, Finset.mem_singleton, @eq_comm _ id, @eq_comm _ id]

theorem size_add_additional (entityIds : ExtTreeSet String) (source target : String) :
    entityIds.size + additionalEndpointCount entityIds source target =
      (pointsOf entityIds ∪ {source, target}).card := by
  have hunion : pointsOf entityIds ∪ {source, target} =
      insert source (insert target (pointsOf entityIds)) := by
    ext id
    simp only [Finset.mem_union, Finset.mem_insert, Finset.mem_singleton]
    tauto
  unfold additionalEndpointCount
  dsimp only
  rw [hunion, Finset.card_insert_eq_ite, Finset.card_insert_eq_ite, card_pointsOf]
  simp only [Finset.mem_insert, mem_pointsOf]
  by_cases hloop : source = target
  · subst hloop
    by_cases hsource : source ∈ entityIds <;> simp [hsource]
  · by_cases hsource : source ∈ entityIds <;> by_cases htarget : target ∈ entityIds <;>
      simp [hloop, hsource, htarget]

/-- A loop over candidates is a greedy selection, and is truncated when it skips one. -/
theorem foldl_add {maxEntities maxRelationships : ℕ} {relationship : α → ResolvedRelationship}
    {start : Finset String} (candidates : List α) (s : Selection α)
    (hpoints : pointsOf s.entityIds =
      start ∪ covered (fun item => ends (relationship item)) s.selected) :
    ∃ taken, GreedyFrom (Fits (fun item => ends (relationship item)) maxEntities maxRelationships
        start) s.selected candidates taken ∧
      (candidates.foldl (Selection.add maxEntities maxRelationships relationship) s).selected =
        s.selected ++ taken ∧
      pointsOf
          (candidates.foldl (Selection.add maxEntities maxRelationships relationship) s).entityIds =
        start ∪ covered (fun item => ends (relationship item)) (s.selected ++ taken) ∧
      ((candidates.foldl (Selection.add maxEntities maxRelationships relationship) s).truncated ↔
        s.truncated ∨ taken ≠ candidates) := by
  induction candidates generalizing s with
  | nil => exact ⟨[], .done, by simp, by simpa using hpoints, by simp⟩
  | cons item candidates ih =>
    have hcard : s.entityIds.size + additionalEndpointCount s.entityIds
        (relationship item).sourceEntityId (relationship item).targetEntityId =
        (start ∪ covered (fun item => ends (relationship item)) (s.selected ++ [item])).card := by
      rw [size_add_additional, hpoints, covered_append, covered_singleton, ← Finset.union_assoc]
      rfl
    rw [List.foldl_cons]
    by_cases hfits : Fits (fun item => ends (relationship item)) maxEntities maxRelationships start
        s.selected item
    · have hadd : s.add maxEntities maxRelationships relationship item =
          ⟨(s.entityIds.insert (relationship item).sourceEntityId).insert
            (relationship item).targetEntityId, s.selected ++ [item], s.truncated⟩ := by
        unfold Selection.add
        dsimp only
        rw [if_neg]
        rw [hcard]
        have hcount := hfits.1
        have hpoint := hfits.2
        omega
      have hpoints' : pointsOf ((s.entityIds.insert (relationship item).sourceEntityId).insert
          (relationship item).targetEntityId) =
            start ∪ covered (fun item => ends (relationship item)) (s.selected ++ [item]) := by
        rw [pointsOf_insert, pointsOf_insert, hpoints, covered_append, covered_singleton]
        ext id
        simp only [ends, Finset.mem_union, Finset.mem_insert, Finset.mem_singleton]
        tauto
      rw [hadd]
      obtain ⟨taken, hgreedy, hselected, hcovered, htruncated⟩ :=
        ih ⟨(s.entityIds.insert (relationship item).sourceEntityId).insert
          (relationship item).targetEntityId, s.selected ++ [item], s.truncated⟩ hpoints'
      refine ⟨item :: taken, .take hfits hgreedy, ?_, ?_, ?_⟩
      · rw [hselected, List.append_assoc, List.singleton_append]
      · rw [hcovered, List.append_assoc, List.singleton_append]
      · rw [htruncated]
        simp
    · have hadd : s.add maxEntities maxRelationships relationship item =
          { s with truncated := true } := by
        unfold Selection.add
        dsimp only
        rw [if_pos]
        rw [hcard]
        unfold Fits at hfits
        omega
      rw [hadd]
      obtain ⟨taken, hgreedy, hselected, hcovered, htruncated⟩ :=
        ih { s with truncated := true } hpoints
      refine ⟨taken, .skip hfits hgreedy, hselected, hcovered, ?_⟩
      have hlength := hgreedy.sublist.length_le
      have hne : taken ≠ item :: candidates := by
        intro heq
        rw [heq, List.length_cons] at hlength
        omega
      rw [htruncated]
      simp [hne]

/-! ### Seeds -/

section Seeds

variable {index : ResolutionIndex} {selection selection' : SeedSelection index} {ids : List String}

theorem foldl_addEntity (h : ids.foldl addEntity selection = selection') :
    (∀ id, id ∈ selection'.entityIds ↔ id ∈ selection.entityIds ∨
      ∃ requested ∈ ids, ∃ entity, index.entitiesById[requested]? = some entity ∧ entity.id = id) ∧
    selection'.missingEntityIds = selection.missingEntityIds ++
      (ids.filter fun id => index.entitiesById[id]?.isNone) ∧
    selection'.relationshipIndexes = selection.relationshipIndexes ∧
    selection'.missingRelationshipIds = selection.missingRelationshipIds ∧
    selection'.unresolvedRelationshipIds = selection.unresolvedRelationshipIds := by
  induction ids generalizing selection with
  | nil =>
    obtain rfl := h
    simp
  | cons requested ids ih =>
    rw [List.foldl_cons] at h
    cases hfound : index.entitiesById[requested]? with
    | none =>
      have hstep : selection.addEntity requested =
          { selection with missingEntityIds := selection.missingEntityIds ++ [requested] } := by
        unfold addEntity
        rw [hfound]
      rw [hstep] at h
      obtain ⟨hentities, hmissing, hrest⟩ := ih h
      refine ⟨fun id => ?_, ?_, hrest⟩
      · rw [hentities]
        simp [hfound]
      · rw [hmissing, List.filter_cons, hfound]
        simp
    | some entity =>
      have hstep : selection.addEntity requested =
          { selection with entityIds := selection.entityIds.insert entity.id } := by
        unfold addEntity
        rw [hfound]
      rw [hstep] at h
      obtain ⟨hentities, hmissing, hrest⟩ := ih h
      refine ⟨fun id => ?_, ?_, hrest⟩
      · rw [hentities, ExtTreeSet.mem_insert, LawfulEqCmp.compare_eq_iff_eq]
        simp only [List.exists_mem_cons_iff, hfound, Option.some_inj, exists_eq_left']
        tauto
      · rw [hmissing, List.filter_cons, hfound]
        simp

theorem foldl_addRelationship
    (hknown : ∀ id position, index.resolvedById[id]? = some position →
      id ∈ index.relationshipsById)
    (h : ids.foldl addRelationship selection = selection') :
    (∀ id, id ∈ selection'.entityIds ↔ id ∈ selection.entityIds ∨
      ∃ requested ∈ ids, ∃ position, index.resolvedById[requested]? = some position ∧
        id ∈ ends (index.resolvedRelationships.get position)) ∧
    selection'.relationshipIndexes = selection.relationshipIndexes ++
      (ids.filterMap fun id => index.resolvedById[id]?) ∧
    selection'.missingRelationshipIds = selection.missingRelationshipIds ++
      (ids.filter fun id => id ∉ index.relationshipsById) ∧
    selection'.unresolvedRelationshipIds = selection.unresolvedRelationshipIds ++
      (ids.filter fun id => id ∈ index.relationshipsById ∧ index.resolvedById[id]? = none) ∧
    selection'.missingEntityIds = selection.missingEntityIds := by
  induction ids generalizing selection with
  | nil =>
    obtain rfl := h
    simp
  | cons requested ids ih =>
    rw [List.foldl_cons] at h
    by_cases hrow : requested ∈ index.relationshipsById
    · cases hfound : index.resolvedById[requested]? with
      | some position =>
        have hstep : selection.addRelationship requested = { selection with
            entityIds := (selection.entityIds.insert
              index.resolvedRelationships[position].sourceEntityId).insert
              index.resolvedRelationships[position].targetEntityId
            relationshipIndexes := selection.relationshipIndexes ++ [position] } := by
          unfold addRelationship
          rw [if_neg (not_not.mpr hrow), hfound]
        rw [hstep] at h
        obtain ⟨hentities, hindexes, hmissing, hunresolved, hrest⟩ := ih h
        refine ⟨fun id => ?_, ?_, ?_, ?_, hrest⟩
        · rw [hentities, ExtTreeSet.mem_insert, ExtTreeSet.mem_insert,
            LawfulEqCmp.compare_eq_iff_eq, LawfulEqCmp.compare_eq_iff_eq]
          simp only [List.exists_mem_cons_iff, hfound, Option.some_inj, exists_eq_left']
          rw [mem_ends]
          generalize (∃ later ∈ ids, _) = P
          tauto
        · rw [hindexes, List.filterMap_cons, hfound, List.append_assoc, List.singleton_append]
        · rw [hmissing, List.filter_cons]
          simp [hrow]
        · rw [hunresolved, List.filter_cons, hfound]
          simp
      | none =>
        have hstep : selection.addRelationship requested = { selection with
            unresolvedRelationshipIds := selection.unresolvedRelationshipIds ++ [requested] } := by
          unfold addRelationship
          rw [if_neg (not_not.mpr hrow), hfound]
        rw [hstep] at h
        obtain ⟨hentities, hindexes, hmissing, hunresolved, hrest⟩ := ih h
        refine ⟨fun id => ?_, ?_, ?_, ?_, hrest⟩
        · rw [hentities]
          simp [hfound]
        · rw [hindexes, List.filterMap_cons, hfound]
        · rw [hmissing, List.filter_cons]
          simp [hrow]
        · rw [hunresolved, List.filter_cons, hfound]
          simp [hrow]
    · have hfound : index.resolvedById[requested]? = none := by
        cases hfound : index.resolvedById[requested]? with
        | none => rfl
        | some position => exact absurd (hknown requested position hfound) hrow
      have hstep : selection.addRelationship requested = { selection with
          missingRelationshipIds := selection.missingRelationshipIds ++ [requested] } := by
        unfold addRelationship
        rw [if_pos hrow]
      rw [hstep] at h
      obtain ⟨hentities, hindexes, hmissing, hunresolved, hrest⟩ := ih h
      refine ⟨fun id => ?_, ?_, ?_, ?_, hrest⟩
      · rw [hentities]
        simp [hfound]
      · rw [hindexes, List.filterMap_cons, hfound]
      · rw [hmissing, List.filter_cons]
        simp [hrow]
      · rw [hunresolved, List.filter_cons]
        simp [hrow]

end Seeds

section Positions

abbrev Position (snapshot : GraphDataSnapshot) : Type :=
  Fin (ResolutionIndex.new snapshot).resolvedRelationships.length

/-- The resolved relationship at a position. -/
abbrev resolvedAt (snapshot : GraphDataSnapshot) (position : Position snapshot) :
    ResolvedRelationship :=
  (ResolutionIndex.new snapshot).resolvedRelationships[position]

variable {position position' : Position snapshot}

theorem resolvedIn_position (position : Position snapshot) :
    ResolvedIn snapshot (resolvedAt snapshot position) :=
  mem_resolvedRelationshipsOf.mp (List.getElem_mem _)

theorem ResolvedIn.exists_position {resolved : ResolvedRelationship}
    (h : ResolvedIn snapshot resolved) :
    ∃ position : Position snapshot, resolvedAt snapshot position = resolved := by
  obtain ⟨position, hlt, hget⟩ := List.getElem_of_mem (mem_resolvedRelationshipsOf.mpr h)
  exact ⟨⟨position, hlt⟩, hget⟩

theorem resolvedById_iff (hvalid : snapshot.Valid) :
    (new snapshot).resolvedById[id]? = some position ↔
      (resolvedAt snapshot position).relationship.id = id :=
  getElem?_resolvedById (resolvedRelationshipsOf_nodup hvalid)

theorem mem_relationshipsById (hvalid : snapshot.Valid) :
    id ∈ (new snapshot).relationshipsById ↔
      ∃ relationship ∈ snapshot.relationships, relationship.id = id := by
  rw [ExtTreeMap.mem_iff_isSome_getElem?, Option.isSome_iff_exists]
  simp only [getElem?_relationshipsById hvalid]

theorem resolvedById_eq_none_iff (hvalid : snapshot.Valid) :
    (new snapshot).resolvedById[id]? = none ↔
      ∀ resolved, ResolvedIn snapshot resolved → resolved.relationship.id ≠ id := by
  rw [Option.eq_none_iff_forall_ne_some]
  simp only [ne_eq, resolvedById_iff hvalid]
  constructor
  · intro h resolved hresolved
    obtain ⟨position, rfl⟩ := hresolved.exists_position
    exact h position
  · intro h position
    exact h _ (resolvedIn_position position)

end Positions

/-- A seed is a requested entity or an end of a requested relationship. -/
def SeedEntity (snapshot : GraphDataSnapshot) (entityIds relationshipIds : List String)
    (id : String) : Prop :=
  (id ∈ entityIds ∧ ∃ entity ∈ snapshot.entities, entity.id = id) ∨
    ∃ resolved, ResolvedIn snapshot resolved ∧ resolved.relationship.id ∈ relationshipIds ∧
      id ∈ ends resolved

/-- A requested relationship whose ends are known. -/
def SeedRelationship (snapshot : GraphDataSnapshot) (relationshipIds : List String)
    (id : String) : Prop :=
  id ∈ relationshipIds ∧ ∃ resolved, ResolvedIn snapshot resolved ∧ resolved.relationship.id = id

/-- What the requested identifiers come to. -/
structure SeedsOf (snapshot : GraphDataSnapshot) (entityIds relationshipIds : List String)
    (seeds : SeedSelection (ResolutionIndex.new snapshot)) : Prop where
  entity_iff : ∀ id, id ∈ seeds.entityIds ↔ SeedEntity snapshot entityIds relationshipIds id
  position_iff : ∀ position, position ∈ seeds.relationshipIndexes ↔
    (resolvedAt snapshot position).relationship.id ∈ relationshipIds
  positions_sorted : (seeds.relationshipIndexes.map fun position =>
    (resolvedAt snapshot position).relationship.id).Pairwise (· < ·)
  missing_iff : ∀ id, id ∈ seeds.missingEntityIds ↔
    id ∈ entityIds ∧ ∀ entity ∈ snapshot.entities, entity.id ≠ id
  missing_sorted : seeds.missingEntityIds.Pairwise (· < ·)
  missingRelationship_iff : ∀ id, id ∈ seeds.missingRelationshipIds ↔
    id ∈ relationshipIds ∧ ∀ relationship ∈ snapshot.relationships, relationship.id ≠ id
  missingRelationship_sorted : seeds.missingRelationshipIds.Pairwise (· < ·)
  unresolved_iff : ∀ id, id ∈ seeds.unresolvedRelationshipIds ↔ id ∈ relationshipIds ∧
    ∃ relationship ∈ snapshot.relationships, relationship.id = id ∧
      ¬ Resolvable snapshot relationship
  unresolved_sorted : seeds.unresolvedRelationshipIds.Pairwise (· < ·)

/-- A relationship of the snapshot is resolvable when it has been resolved. -/
theorem resolvable_iff {relationship : GraphRelationshipDetail}
    (hmem : relationship ∈ snapshot.relationships) : Resolvable snapshot relationship ↔
      ∃ resolved, ResolvedIn snapshot resolved ∧ resolved.relationship = relationship := by
  rw [← resolve_isSome_iff, Option.isSome_iff_exists]
  simp only [resolve_iff]
  constructor
  · rintro ⟨resolved, rfl, hends⟩
    exact ⟨resolved, ⟨hmem, hends⟩, rfl⟩
  · rintro ⟨resolved, ⟨-, hends⟩, rfl⟩
    exact ⟨resolved, rfl, hends⟩

/-- The identifiers of the positions that have been found are those that have been looked for. -/
theorem resolved_ids_sublist (hvalid : snapshot.Valid) (ids : List String) :
    ((ids.filterMap fun id => (new snapshot).resolvedById[id]?).map fun position =>
      (resolvedAt snapshot position).relationship.id).Sublist ids := by
  rw [List.map_filterMap]
  have hguard : (fun id : String => ((new snapshot).resolvedById[id]?).map
      fun position : Position snapshot => (resolvedAt snapshot position).relationship.id) =
      Option.guard fun id => ((new snapshot).resolvedById[id]?).isSome := by
    funext id
    cases hfound : (new snapshot).resolvedById[id]? with
    | none => simp [Option.guard, hfound]
    | some position =>
      rw [Option.map_some, (resolvedById_iff hvalid).mp hfound]
      simp [Option.guard, hfound]
  rw [hguard, List.filterMap_eq_filter]
  exact List.filter_sublist

theorem sortBy_ids_sorted {id : α → String} {items : List α}
    (h : (items.map id).Pairwise (· < ·)) :
    ((sortBy (fun left right => compare (id left) (id right)) items).map id).Pairwise (· < ·) := by
  have hlt : ∀ {a b : String}, compare a b = .lt → a < b := compareOfLessAndEq_eq_lt.mp
  have hties : NoTies compare (items.map id) := fun _ _ _ _ heq => LawfulEqCmp.eq_of_compare heq
  have hmap : (sortBy (fun left right => compare (id left) (id right)) items).map id =
      sortBy compare (items.map id) := map_sortBy fun _ _ => rfl
  rw [hmap]
  exact (sortBy_pairwise_lt (nodup_of_sorted h) hties).imp hlt

variable (hvalid : snapshot.Valid)
include hvalid

theorem resolveSeeds_spec (entityIds relationshipIds : List String) :
    SeedsOf snapshot entityIds relationshipIds
      (resolveSeeds (new snapshot) entityIds relationshipIds) := by
  have hknown : ∀ id position, (new snapshot).resolvedById[id]? = some position →
      id ∈ (new snapshot).relationshipsById := by
    intro id position hposition
    rw [resolvedById_iff hvalid] at hposition
    rw [mem_relationshipsById hvalid]
    exact ⟨_, (resolvedIn_position position).1, hposition⟩
  obtain ⟨selection, hselection⟩ : ∃ selection : SeedSelection (new snapshot),
    (ExtTreeSet.ofList entityIds compare).toList.foldl addEntity ⟨∅, [], [], [], []⟩ =
      selection := ⟨_, rfl⟩
  obtain ⟨selection', hselection'⟩ : ∃ selection',
    (ExtTreeSet.ofList relationshipIds compare).toList.foldl addRelationship selection =
      selection' := ⟨_, rfl⟩
  have hseeds : resolveSeeds (new snapshot) entityIds relationshipIds =
      { selection' with
        relationshipIndexes := sortBy
          (fun left right => compare
            (resolvedAt snapshot left).relationship.id (resolvedAt snapshot right).relationship.id)
          selection'.relationshipIndexes } := by
    unfold resolveSeeds
    dsimp only
    rw [hselection, hselection']
  obtain ⟨hentities, hmissing, hindexes, hmissingRow, hunresolved⟩ := foldl_addEntity hselection
  obtain ⟨hentities', hindexes', hmissingRow', hunresolved', hmissing'⟩ :=
    foldl_addRelationship hknown hselection'
  rw [hindexes, List.nil_append] at hindexes'
  rw [hmissing, List.nil_append] at hmissing'
  rw [hmissingRow, List.nil_append] at hmissingRow'
  rw [hunresolved, List.nil_append] at hunresolved'
  have hpositions : ∀ position, position ∈ selection'.relationshipIndexes ↔
      (resolvedAt snapshot position).relationship.id ∈ relationshipIds := by
    intro position
    rw [hindexes', List.mem_filterMap]
    simp only [ExtTreeSet.mem_toList, mem_ofList, resolvedById_iff hvalid, exists_eq_right']
  have hids := resolved_ids_sublist hvalid (ExtTreeSet.ofList relationshipIds compare).toList
  rw [← hindexes'] at hids
  have hsorted : ∀ ids : List String, (ExtTreeSet.ofList ids compare).toList.Pairwise (· < ·) :=
    fun ids => toList_sorted _
  rw [hseeds]
  constructor
  · intro id
    dsimp only
    rw [hentities', hentities]
    unfold SeedEntity
    simp only [ExtTreeSet.not_mem_empty, false_or, ExtTreeSet.mem_toList, mem_ofList,
      getElem?_entitiesById hvalid, resolvedById_iff hvalid]
    refine or_congr ?_ ?_
    · constructor
      · rintro ⟨_, hrequested, entity, ⟨hmem, rfl⟩, rfl⟩
        exact ⟨hrequested, entity, hmem, rfl⟩
      · rintro ⟨hrequested, entity, hmem, rfl⟩
        exact ⟨entity.id, hrequested, entity, ⟨hmem, rfl⟩, rfl⟩
    · constructor
      · rintro ⟨_, hrequested, position, rfl, hend⟩
        exact ⟨_, resolvedIn_position position, hrequested, hend⟩
      · rintro ⟨resolved, hresolved, hrequested, hend⟩
        obtain ⟨position, rfl⟩ := hresolved.exists_position
        exact ⟨_, hrequested, position, rfl, hend⟩
  · intro position
    rw [mem_sortBy, hpositions]
  · exact sortBy_ids_sorted ((hsorted relationshipIds).sublist hids)
  · intro id
    dsimp only
    rw [hmissing', List.mem_filter, ExtTreeSet.mem_toList, mem_ofList, Option.isNone_iff_eq_none,
      Option.eq_none_iff_forall_ne_some]
    simp only [ne_eq, getElem?_entitiesById hvalid, not_and]
  · dsimp only
    rw [hmissing']
    exact (hsorted entityIds).sublist List.filter_sublist
  · intro id
    dsimp only
    rw [hmissingRow', List.mem_filter, ExtTreeSet.mem_toList, mem_ofList, decide_eq_true_eq,
      mem_relationshipsById hvalid]
    simp only [not_exists, not_and, ne_eq]
  · dsimp only
    rw [hmissingRow']
    exact (hsorted relationshipIds).sublist List.filter_sublist
  · intro id
    dsimp only
    rw [hunresolved', List.mem_filter, ExtTreeSet.mem_toList, mem_ofList, decide_eq_true_eq,
      mem_relationshipsById hvalid, resolvedById_eq_none_iff hvalid]
    refine and_congr_right fun _ => ?_
    constructor
    · rintro ⟨⟨relationship, hmem, rfl⟩, hnone⟩
      refine ⟨relationship, hmem, rfl, ?_⟩
      rw [resolvable_iff hmem]
      rintro ⟨resolved, hresolved, rfl⟩
      exact hnone resolved hresolved rfl
    · rintro ⟨relationship, hmem, rfl, hnot⟩
      refine ⟨⟨relationship, hmem, rfl⟩, ?_⟩
      intro resolved hresolved hid
      rw [resolvable_iff hmem] at hnot
      exact hnot ⟨resolved, hresolved,
        List.inj_on_of_nodup_map hvalid.relationships hresolved.1 hmem hid⟩
  · dsimp only
    rw [hunresolved']
    exact (hsorted relationshipIds).sublist List.filter_sublist

/-! ### Around the seeds -/

theorem position_eq (h : (resolvedAt snapshot position).relationship.id =
    (resolvedAt snapshot position').relationship.id) : position = position' := by
  have hfound := (resolvedById_iff hvalid).mpr h
  rw [(resolvedById_iff hvalid).mpr rfl] at hfound
  exact (Option.some.inj hfound).symm

theorem mem_expansionCandidates {entityIds relationshipIds : List String}
    {seeds : SeedSelection (new snapshot)}
    (hseeds : SeedsOf snapshot entityIds relationshipIds seeds) :
    position ∈ expansionCandidates (new snapshot) seeds ↔
      (resolvedAt snapshot position).relationship.id ∉ relationshipIds ∧
      ∃ id ∈ ends (resolvedAt snapshot position), id ∈ seeds.entityIds := by
  have hseed : (resolvedAt snapshot position).relationship.id ∈
      (seeds.relationshipIndexes.map fun index' => (resolvedAt snapshot index').relationship.id) ↔
      (resolvedAt snapshot position).relationship.id ∈ relationshipIds := by
    rw [List.mem_map, ← hseeds.position_iff]
    constructor
    · rintro ⟨position', hmem, heq⟩
      rwa [← position_eq hvalid heq]
    · intro hmem
      exact ⟨position, hmem, rfl⟩
  have hadjacent : position ∈ (seeds.entityIds.toList.filterMap fun id =>
      (new snapshot).adjacency[id]?).flatten ↔
      ∃ id ∈ ends (resolvedAt snapshot position), id ∈ seeds.entityIds := by
    have hlisted : ∀ id, position ∈ (new snapshot).adjacency[id]?.getD [] ↔
        id ∈ ends (resolvedAt snapshot position) := by
      intro id
      rw [mem_ends]
      exact mem_getD_adjacencyOf
    simp only [List.mem_flatten, List.mem_filterMap, ExtTreeSet.mem_toList, ← hlisted]
    constructor
    · rintro ⟨positions, ⟨id, hid, hfound⟩, hposition⟩
      refine ⟨id, ?_, hid⟩
      rwa [hfound, Option.getD_some]
    · rintro ⟨id, hposition, hid⟩
      cases hfound : (new snapshot).adjacency[id]? with
      | none =>
        rw [hfound] at hposition
        cases hposition
      | some positions =>
        rw [hfound, Option.getD_some] at hposition
        exact ⟨positions, ⟨id, hid, hfound⟩, hposition⟩
  unfold expansionCandidates
  dsimp only
  rw [mem_sortBy, List.mem_filter, decide_eq_true_eq, ExtTreeSet.mem_toList, mem_ofList, mem_ofList,
    hseed, hadjacent, and_comm]

theorem expansionCandidates_priorTo (seeds : SeedSelection (new snapshot)) :
    ((expansionCandidates (new snapshot) seeds).map
      (resolvedAt snapshot)).Pairwise PriorTo := by
  have htrans : TransCmp fun left right : Position snapshot =>
    compareRelationshipPriority (resolvedAt snapshot left) (resolvedAt snapshot right) := transCmp_on _
  rw [List.pairwise_map]
  unfold expansionCandidates
  dsimp only
  refine (sortBy_pairwise_lt ((toList_nodup _).filter _) ?_).imp
    compareRelationshipPriority_eq_lt_iff.mp
  intro a _ b _ heq
  have hget := noTies_compareRelationshipPriority (resolvedRelationshipsOf_nodup hvalid) _
    (List.getElem_mem a.2) _ (List.getElem_mem b.2) heq
  exact position_eq hvalid (congrArg (·.relationship.id) hget)

end GraphLoom.Studio
