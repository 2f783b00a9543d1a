import GraphLoom.Studio.Equiv.Lists
import GraphLoom.Studio.Projection

/-!
# Resolved relationships

The index of a valid snapshot holds the relationships whose ends are each the title of a single
entity (`mem_resolvedRelationshipsOf`), by priority and each of them once, and does not depend on
the order of the rows (`index_sameRows`).
-/

namespace GraphLoom.Studio

open Foundation Std ResolutionIndex

variable {snapshot snapshot' : GraphDataSnapshot}

/-! ### Ends -/

/-- The entity is the only one with the title. -/
def OnlyEntity (snapshot : GraphDataSnapshot) (title : String) (entity : GraphEntityDetail) : Prop :=
  snapshot.entities.filter (fun entity => entity.title = title) = [entity]

/-- A relationship of the snapshot with the ends that its titles stand for. -/
def ResolvedIn (snapshot : GraphDataSnapshot) (resolved : ResolvedRelationship) : Prop :=
  resolved.relationship ∈ snapshot.relationships ∧ ∃ source target,
    OnlyEntity snapshot resolved.relationship.source source ∧
    OnlyEntity snapshot resolved.relationship.target target ∧
    resolved.sourceEntityId = source.id ∧ resolved.targetEntityId = target.id

/-- Each title of the relationship belongs to exactly one entity. -/
def Resolvable (snapshot : GraphDataSnapshot) (relationship : GraphRelationshipDetail) : Prop :=
  (snapshot.entities.filter fun entity => entity.title = relationship.source).length = 1 ∧
    (snapshot.entities.filter fun entity => entity.title = relationship.target).length = 1

instance {relationship : GraphRelationshipDetail} : Decidable (Resolvable snapshot relationship) :=
  inferInstanceAs (Decidable (_ ∧ _))

variable {entity : GraphEntityDetail} {title : String}

theorem OnlyEntity.mem (h : OnlyEntity snapshot title entity) : entity ∈ snapshot.entities := by
  have hmem : entity ∈ snapshot.entities.filter fun entity => entity.title = title := by
    rw [h]
    exact List.mem_singleton_self entity
  exact List.mem_of_mem_filter hmem

theorem OnlyEntity.unique {entity entity' : GraphEntityDetail}
    (h : OnlyEntity snapshot title entity) (h' : OnlyEntity snapshot title entity') :
    entity = entity' :=
  List.singleton_inj.mp (h.symm.trans h')

theorem OnlyEntity.sameRows
    (hrows : snapshot.SameRows snapshot') (h : OnlyEntity snapshot title entity) :
    OnlyEntity snapshot' title entity := by
  have hperm := (hrows.entities.filter fun entity => entity.title = title).symm
  rw [h] at hperm
  exact List.perm_singleton.mp hperm

theorem singleEntity_iff : singleEntity (entitiesByTitle snapshot.entities) title = some entity ↔
      OnlyEntity snapshot title entity := by
  have hrows : (entitiesByTitle snapshot.entities)[title]?.getD [] =
      snapshot.entities.filter fun entity => entity.title = title := by
    unfold entitiesByTitle
    rw [getD_foldl_pushAt, ExtTreeMap.getElem?_empty, Option.getD_none, List.nil_append]
  unfold singleEntity OnlyEntity
  rw [← hrows]
  cases (entitiesByTitle snapshot.entities)[title]? with
  | none => simp
  | some rows =>
    match rows with
    | [] => simp
    | [row] => simp
    | row :: row' :: rows => simp

variable {relationship : GraphRelationshipDetail}

theorem resolve_iff {resolved : ResolvedRelationship} :
    resolve (entitiesByTitle snapshot.entities) relationship = some resolved ↔
      resolved.relationship = relationship ∧ ∃ source target,
        OnlyEntity snapshot relationship.source source ∧
        OnlyEntity snapshot relationship.target target ∧
        resolved.sourceEntityId = source.id ∧ resolved.targetEntityId = target.id := by
  obtain ⟨row, sourceId, targetId⟩ := resolved
  unfold resolve
  simp only [Option.bind_eq_bind, Option.bind_eq_some_iff, singleEntity_iff, Option.pure_def,
    Option.some_inj, ResolvedRelationship.mk.injEq]
  constructor
  · rintro ⟨source, hsource, target, htarget, rfl, rfl, rfl⟩
    exact ⟨rfl, source, target, hsource, htarget, rfl, rfl⟩
  · rintro ⟨rfl, source, target, hsource, htarget, rfl, rfl⟩
    exact ⟨source, hsource, target, htarget, rfl, rfl, rfl⟩

theorem resolve_isSome_iff : (resolve (entitiesByTitle snapshot.entities) relationship).isSome ↔
      Resolvable snapshot relationship := by
  unfold Resolvable
  rw [Option.isSome_iff_exists, List.length_eq_one_iff, List.length_eq_one_iff]
  constructor
  · rintro ⟨resolved, hresolved⟩
    obtain ⟨-, source, target, hsource, htarget, -⟩ := resolve_iff.mp hresolved
    exact ⟨⟨source, hsource⟩, target, htarget⟩
  · rintro ⟨⟨source, hsource⟩, target, htarget⟩
    exact ⟨⟨relationship, source.id, target.id⟩,
      resolve_iff.mpr ⟨rfl, source, target, hsource, htarget, rfl, rfl⟩⟩

theorem mem_resolvedRelationshipsOf {resolved : ResolvedRelationship} :
    resolved ∈ resolvedRelationshipsOf snapshot ↔ ResolvedIn snapshot resolved := by
  unfold resolvedRelationshipsOf ResolvedIn
  simp only [mem_sortBy, List.mem_filterMap, resolve_iff]
  constructor
  · rintro ⟨relationship, hmem, rfl, hends⟩
    exact ⟨hmem, hends⟩
  · rintro ⟨hmem, hends⟩
    exact ⟨_, hmem, rfl, hends⟩

/-- A relationship resolves in at most one way. -/
theorem ResolvedIn.unique (hvalid : snapshot.Valid) {resolved resolved' : ResolvedRelationship}
    (h : ResolvedIn snapshot resolved) (h' : ResolvedIn snapshot resolved')
    (hid : resolved.relationship.id = resolved'.relationship.id) : resolved = resolved' := by
  obtain ⟨row, sourceId, targetId⟩ := resolved
  obtain ⟨row', sourceId', targetId'⟩ := resolved'
  obtain ⟨hmem, source, target, hsource, htarget, rfl, rfl⟩ := h
  obtain ⟨hmem', source', target', hsource', htarget', rfl, rfl⟩ := h'
  obtain rfl : row = row' := List.inj_on_of_nodup_map hvalid.relationships hmem hmem' hid
  rw [hsource.unique hsource', htarget.unique htarget']

theorem ResolvedIn.sameRows (hrows : snapshot.SameRows snapshot') {resolved : ResolvedRelationship}
    (h : ResolvedIn snapshot resolved) : ResolvedIn snapshot' resolved := by
  obtain ⟨hmem, source, target, hsource, htarget, hids⟩ := h
  exact ⟨hrows.relationships.mem_iff.mp hmem, source, target, hsource.sameRows hrows,
    htarget.sameRows hrows, hids⟩

/-- How many relationships are left out. -/
theorem unresolvedRelationshipCount_eq :
    (new snapshot).unresolvedRelationshipCount =
      (snapshot.relationships.filter fun relationship =>
        ¬ Resolvable snapshot relationship).length := by
  have hresolved : (resolvedRelationshipsOf snapshot).length =
      snapshot.relationships.countP fun relationship => Resolvable snapshot relationship := by
    unfold resolvedRelationshipsOf
    rw [length_sortBy, List.length_filterMap_eq_countP]
    refine List.countP_congr fun relationship _ => ?_
    rw [resolve_isSome_iff, decide_eq_true_eq]
  have htotal := List.length_eq_countP_add_countP (fun relationship : GraphRelationshipDetail =>
    decide (Resolvable snapshot relationship)) (l := snapshot.relationships)
  rw [← List.countP_eq_length_filter]
  show snapshot.relationships.length - (resolvedRelationshipsOf snapshot).length = _
  simp only [decide_eq_true_eq] at htotal
  omega

/-! ### Priorities -/

def rankKey (resolved : ResolvedRelationship) : Option SortKey :=
  resolved.relationship.rank.map .number

/-- Weights have the total order of floats. -/
def weightKey (resolved : ResolvedRelationship) : Option SortKey :=
  resolved.relationship.weight.map fun weight => .number weight.totalKey

/-- The higher rank comes first, then the higher weight, then the lower identifier; what is missing
comes last. -/
def PriorTo (left right : ResolvedRelationship) : Prop :=
  MissingLast .desc (rankKey left) (rankKey right) ∨
    rankKey left = rankKey right ∧ Precedes .desc weightKey (·.relationship.id) left right

/-- The higher rank comes first, then the lower identifier; a missing rank comes last. -/
def EntityPriorTo : GraphEntityDetail → GraphEntityDetail → Prop :=
  Precedes .desc (fun entity => entity.rank.map .number) (·.id)

theorem compare_rank (left right : Option ℤ) : compare right left =
    compareOptional SortKey.cmp (left.map .number) (right.map .number) .desc := by
  have hswap : ∀ a b : ℤ, compare b a = (compare a b).swap := fun _ _ => OrientedCmp.eq_swap
  cases left with
  | none => cases right <;> rfl
  | some left =>
    cases right with
    | none => rfl
    | some right => exact hswap left right

theorem compareOptionalWeightDesc_eq (left right : Option F64) :
    compareOptionalWeightDesc left right = compareOptional SortKey.cmp
      (left.map fun weight => .number weight.totalKey)
      (right.map fun weight => .number weight.totalKey) .desc := by
  have hswap : ∀ a b : F64, b.totalCmp a = (a.totalCmp b).swap := fun _ _ => OrientedCmp.eq_swap
  cases left with
  | none => cases right <;> rfl
  | some left =>
    cases right with
    | none => rfl
    | some right => exact hswap left right

theorem compareEntityPriority_eq : compareEntityPriority =
    compareBy .desc (fun entity => entity.rank.map .number) (·.id) := by
  funext left right
  unfold compareEntityPriority compareBy
  rw [compare_rank]

theorem compareRelationshipPriority_eq (left right : ResolvedRelationship) :
    compareRelationshipPriority left right =
      (compareOptional SortKey.cmp (rankKey left) (rankKey right) .desc).then
        (compareBy .desc weightKey (·.relationship.id) left right) := by
  unfold compareRelationshipPriority compareBy
  rw [compare_rank, compareOptionalWeightDesc_eq]
  rfl

instance : TransCmp compareRelationshipPriority := by
  have hrank : TransCmp fun left right : ResolvedRelationship =>
      compareOptional SortKey.cmp (rankKey left) (rankKey right) .desc :=
    @transCmp_on _ _ _ (transCmp_compareOptional .desc) rankKey
  have hrest : TransCmp (compareBy .desc weightKey fun resolved : ResolvedRelationship =>
      resolved.relationship.id) := transCmp_compareBy _ _ _
  have hlex : compareRelationshipPriority = compareLex
      (fun left right : ResolvedRelationship =>
        compareOptional SortKey.cmp (rankKey left) (rankKey right) .desc)
      (compareBy .desc weightKey fun resolved : ResolvedRelationship =>
        resolved.relationship.id) := by
    funext left right
    exact compareRelationshipPriority_eq left right
  rw [hlex]
  infer_instance

theorem compareRelationshipPriority_eq_lt_iff {left right : ResolvedRelationship} :
    compareRelationshipPriority left right = .lt ↔ PriorTo left right := by
  unfold PriorTo
  rw [compareRelationshipPriority_eq, Ordering.then_eq_lt, compareOptional_eq_lt_iff,
    compareOptional_eq_eq_iff, compareBy_eq_lt_iff]

theorem noTies_compareRelationshipPriority {rows : List ResolvedRelationship}
    (hnodup : (rows.map (·.relationship.id)).Nodup) : NoTies compareRelationshipPriority rows := by
  intro a ha b hb h
  rw [compareRelationshipPriority_eq, Ordering.then_eq_eq] at h
  have hid := eq_of_compareBy_eq h.2
  exact List.inj_on_of_nodup_map hnodup ha hb hid

theorem filterMap_resolve_ids (relationships : List GraphRelationshipDetail) :
    ((relationships.filterMap (resolve (entitiesByTitle snapshot.entities))).map
      (·.relationship.id)).Sublist (relationships.map (·.id)) := by
  induction relationships with
  | nil => exact .slnil
  | cons relationship relationships ih =>
    rw [List.filterMap_cons]
    cases hresolve : resolve (entitiesByTitle snapshot.entities) relationship with
    | none => exact ih.cons _
    | some resolved =>
      obtain ⟨rfl, -⟩ := resolve_iff.mp hresolve
      exact ih.cons_cons _

theorem resolvedRelationshipsOf_nodup (hvalid : snapshot.Valid) :
    ((resolvedRelationshipsOf snapshot).map (·.relationship.id)).Nodup := by
  unfold resolvedRelationshipsOf
  refine (sortBy_perm.map _).nodup_iff.mpr ?_
  exact hvalid.relationships.sublist (filterMap_resolve_ids snapshot.relationships)

theorem resolvedRelationshipsOf_priorTo (hvalid : snapshot.Valid) :
    (resolvedRelationshipsOf snapshot).Pairwise PriorTo := by
  have hnodup : ((snapshot.relationships.filterMap
      (resolve (entitiesByTitle snapshot.entities))).map (·.relationship.id)).Nodup :=
    hvalid.relationships.sublist (filterMap_resolve_ids snapshot.relationships)
  exact (sortBy_pairwise_lt hnodup.of_map (noTies_compareRelationshipPriority hnodup)).imp
    compareRelationshipPriority_eq_lt_iff.mp

theorem PriorTo.asymm {a b : ResolvedRelationship} (hab : PriorTo a b) : ¬ PriorTo b a := by
  intro hba
  rw [← compareRelationshipPriority_eq_lt_iff] at hab hba
  exact OrientedCmp.not_lt_of_lt hba hab

theorem nodup_of_priorTo {rows : List ResolvedRelationship} (h : rows.Pairwise PriorTo) :
    rows.Nodup := by
  refine h.imp ?_
  rintro a _ haa rfl
  exact haa.asymm haa

/-- Two lists by priority are equal when they have the same elements. -/
theorem eq_of_priorTo {rows rows' : List ResolvedRelationship} (h : rows.Pairwise PriorTo)
    (h' : rows'.Pairwise PriorTo) (hmem : ∀ row, row ∈ rows ↔ row ∈ rows') : rows = rows' :=
  List.Perm.eq_of_pairwise (fun _ _ _ _ hab hba => absurd hba hab.asymm) h h'
    ((List.perm_ext_iff_of_nodup (nodup_of_priorTo h) (nodup_of_priorTo h')).mpr hmem)

/-! ### The index -/

variable {id : String}

theorem getElem?_entitiesById (hvalid : snapshot.Valid) :
    (new snapshot).entitiesById[id]? = some entity ↔
      entity ∈ snapshot.entities ∧ entity.id = id := by
  refine (getElem?_ofList_iff hvalid.entities).trans ?_
  constructor
  · rintro ⟨row, hrow, hid, rfl⟩
    exact ⟨hrow, hid⟩
  · rintro ⟨hrow, hid⟩
    exact ⟨entity, hrow, hid, rfl⟩

theorem getElem?_relationshipsById (hvalid : snapshot.Valid) :
    (new snapshot).relationshipsById[id]? = some relationship ↔
      relationship ∈ snapshot.relationships ∧ relationship.id = id := by
  refine (getElem?_ofList_iff hvalid.relationships).trans ?_
  constructor
  · rintro ⟨row, hrow, hid, rfl⟩
    exact ⟨hrow, hid⟩
  · rintro ⟨hrow, hid⟩
    exact ⟨relationship, hrow, hid, rfl⟩

section Positions

variable {resolved : List ResolvedRelationship}

theorem getElem?_resolvedById (hnodup : (resolved.map (·.relationship.id)).Nodup)
    {position : Fin resolved.length} :
    (resolvedById resolved)[id]? = some position ↔ (resolved.get position).relationship.id = id := by
  have hkeys : ((List.finRange resolved.length).map fun position =>
      (resolved.get position).relationship.id).Nodup := by
    refine (List.nodup_finRange _).map_on ?_
    intro i _ j _ hij
    have hi : (i : ℕ) < (resolved.map (·.relationship.id)).length := by simp
    have hj : (j : ℕ) < (resolved.map (·.relationship.id)).length := by simp
    have heq : (resolved.map (·.relationship.id))[(i : ℕ)] =
        (resolved.map (·.relationship.id))[(j : ℕ)] := by
      simpa using hij
    exact Fin.ext (hnodup.getElem_inj_iff.mp heq)
  refine (getElem?_ofList_iff hkeys).trans ?_
  constructor
  · rintro ⟨_, -, hid, rfl⟩
    exact hid
  · intro hid
    exact ⟨position, List.mem_finRange position, hid, rfl⟩

theorem mem_getD_addAdjacent {adjacency : ExtTreeMap String (List (Fin resolved.length))}
    {position position' : Fin resolved.length} :
    position ∈ (addAdjacent resolved adjacency position')[id]?.getD [] ↔
      position ∈ adjacency[id]?.getD [] ∨ position = position' ∧
        ((resolved.get position).sourceEntityId = id ∨ (resolved.get position).targetEntityId = id) := by
  have hsingle : ∀ end' : String,
      position ∈ (if end' = id then [position'] else []) ↔ position = position' ∧ end' = id := by
    intro end'
    by_cases hend : end' = id <;> simp [hend]
  unfold addAdjacent
  dsimp only
  split_ifs with hloop
  · rw [getD_pushAt, getD_pushAt, List.mem_append, List.mem_append, hsingle, hsingle, or_assoc]
    refine or_congr_right ?_
    constructor
    · rintro (⟨rfl, hid⟩ | ⟨rfl, hid⟩)
      · exact ⟨rfl, .inl hid⟩
      · exact ⟨rfl, .inr hid⟩
    · rintro ⟨rfl, hid | hid⟩
      · exact .inl ⟨rfl, hid⟩
      · exact .inr ⟨rfl, hid⟩
  · -- both ends of a loop are the same entity
    rw [ne_eq, not_not] at hloop
    rw [getD_pushAt, List.mem_append, hsingle]
    refine or_congr_right (and_congr_right ?_)
    rintro rfl
    exact (or_iff_left_of_imp fun hid => hloop.trans hid).symm

theorem mem_getD_adjacencyOf {position : Fin resolved.length} :
    position ∈ (adjacencyOf resolved)[id]?.getD [] ↔
      (resolved.get position).sourceEntityId = id ∨ (resolved.get position).targetEntityId = id := by
  have hfold : ∀ (positions : List (Fin resolved.length))
      (adjacency : ExtTreeMap String (List (Fin resolved.length))),
      position ∈ (positions.foldl (addAdjacent resolved) adjacency)[id]?.getD [] ↔
        position ∈ adjacency[id]?.getD [] ∨ position ∈ positions ∧
          ((resolved.get position).sourceEntityId = id ∨ (resolved.get position).targetEntityId = id) := by
    intro positions
    induction positions with
    | nil => simp
    | cons position' positions ih =>
      intro adjacency
      rw [List.foldl_cons, ih, mem_getD_addAdjacent, List.mem_cons, or_assoc, ← or_and_right]
  unfold adjacencyOf
  rw [hfold, ExtTreeMap.getElem?_empty, Option.getD_none]
  simp

end Positions

/-- **The index does not depend on the order of the rows.** -/
theorem index_sameRows (hvalid : snapshot.Valid) (hrows : snapshot.SameRows snapshot') :
    new snapshot = new snapshot' := by
  have hvalid' : snapshot'.Valid := hrows.valid_iff.mp hvalid
  have hrows' : snapshot'.SameRows snapshot :=
    ⟨hrows.entities.symm, hrows.relationships.symm, hrows.communities.symm,
      hrows.communityReports.symm⟩
  have hentities : (new snapshot).entitiesById =
      (new snapshot').entitiesById := by
    apply ExtTreeMap.ext_getElem?
    intro id
    ext entity
    rw [getElem?_entitiesById hvalid, getElem?_entitiesById hvalid', hrows.entities.mem_iff]
  have hrelationships : (new snapshot).relationshipsById =
      (new snapshot').relationshipsById := by
    apply ExtTreeMap.ext_getElem?
    intro id
    ext relationship
    rw [getElem?_relationshipsById hvalid, getElem?_relationshipsById hvalid',
      hrows.relationships.mem_iff]
  have hresolved : resolvedRelationshipsOf snapshot = resolvedRelationshipsOf snapshot' := by
    apply eq_of_priorTo (resolvedRelationshipsOf_priorTo hvalid)
      (resolvedRelationshipsOf_priorTo hvalid')
    intro resolved
    rw [mem_resolvedRelationshipsOf, mem_resolvedRelationshipsOf]
    exact ⟨fun h => h.sameRows hrows, fun h => h.sameRows hrows'⟩
  unfold new at hentities hrelationships ⊢
  dsimp only at hentities hrelationships
  rw [hentities, hrelationships, hresolved, hrows.relationships.length_eq]

end GraphLoom.Studio
