import GraphLoom.Query.Local.Expansion

/-!
# The index gives the neighbourhood of the selected entities

The positions of an entity's relationships are those of the relationships that start or end at it,
in the order of the table.  The position of an identifier is that of the last row with it.

What the builder finds through its index are the relationships that touch the selected entities.
Ranked by the filter they are the `neighbourhood` of the entities (`filterRelationshipsCapture_eq`),
and the text units are ranked by the first of the entities that refers to them
(`mem_selectSourceTextUnits`).
-/

namespace GraphLoom.Query

open Foundation Std

variable {relationships : List Relationship} {title : String}

/-- A relationship is added to the positions of its ends, once to each of them. -/
theorem getD_addRelationship {m : ExtTreeMap String (List ℕ)} {row : Relationship × ℕ} :
    (addRelationship m row)[title]?.getD [] =
      m[title]?.getD [] ++
        if row.1.source = title ∨ row.1.target = title then [row.2] else [] := by
  unfold addRelationship
  dsimp only
  by_cases hloop : row.1.target = row.1.source
  · rw [if_neg (not_not_intro hloop), getD_pushAt, hloop]
    simp only [or_self]
  · rw [if_pos hloop, getD_pushAt, getD_pushAt, List.append_assoc]
    by_cases hsource : row.1.source = title
    · have htarget : ¬ row.1.target = title := fun h => hloop (h.trans hsource.symm)
      rw [if_pos hsource, if_neg htarget, if_pos (Or.inl hsource), List.append_nil]
    · simp only [hsource, if_false, false_or, List.nil_append]

theorem getD_foldl_addRelationship {m : ExtTreeMap String (List ℕ)}
    {rows : List (Relationship × ℕ)} :
    (rows.foldl addRelationship m)[title]?.getD [] =
      m[title]?.getD [] ++
        (rows.filter fun row => row.1.source = title ∨ row.1.target = title).map (·.2) := by
  induction rows generalizing m with
  | nil => simp
  | cons row rows ih =>
    rw [List.foldl_cons, ih, getD_addRelationship, List.filter_cons, List.append_assoc]
    by_cases hends : row.1.source = title ∨ row.1.target = title <;> simp [hends]

theorem relationshipsByEntity_getD (entities : List Entity) (reports : List CommunityReport)
    (textUnits : List TextUnit) (covariates : List Covariate) :
    ((QueryDataIndex.new entities reports textUnits relationships
        covariates).relationshipsByEntity[title]?).getD [] =
      positions (fun relationship => relationship.source = title ∨ relationship.target = title)
        relationships := by
  show ((relationships.zipIdx.foldl addRelationship ∅)[title]?).getD [] = _
  rw [getD_foldl_addRelationship, ExtTreeMap.getElem?_empty]
  rfl

end GraphLoom.Query

/-! ## The index gives the neighbourhood of the selected entities -/

namespace GraphLoom.Query.Local

open Foundation Std

/-! ### Positions -/

namespace LocalContextBuilder

variable {builder : LocalContextBuilder}

theorem Indexed.relationshipsByEntity (h : builder.Indexed) (title : String) :
    (builder.index.relationshipsByEntity[title]?).getD [] =
      positions (fun relationship => relationship.source = title ∨ relationship.target = title)
        builder.relationships := by
  obtain ⟨covariateGroups, hindex⟩ := h
  rw [hindex]
  exact relationshipsByEntity_getD builder.entities builder.reports builder.textUnits
    builder.covariates

theorem Indexed.textUnitById (h : builder.Indexed) (id : String) :
    (builder.index.textUnitById[id]?).bind (builder.textUnits[·]?) =
      textUnitOf builder.textUnits id := by
  obtain ⟨covariateGroups, hindex⟩ := h
  rw [hindex]
  exact getElem?_ofList_zipIdx

theorem Indexed.entityRelationships (h : builder.Indexed) (entity : Entity) :
    builder.entityRelationships entity = relationshipsOf builder.relationships entity.title := by
  unfold LocalContextBuilder.entityRelationships
  rw [h.relationshipsByEntity]
  exact filterMap_positions

theorem mem_positionsOf {entities : List Entity} {position : ℕ} :
    position ∈ builder.positionsOf entities ↔ ∃ entity ∈ entities,
      position ∈ (builder.index.relationshipsByEntity[entity.title]?).getD [] := by
  have hfold : ∀ found : ExtTreeSet ℕ, position ∈ entities.foldl
      (fun positions entity => positions.insertMany
        ((builder.index.relationshipsByEntity[entity.title]?).getD [])) found ↔
      position ∈ found ∨ ∃ entity ∈ entities,
        position ∈ (builder.index.relationshipsByEntity[entity.title]?).getD [] := by
    induction entities with
    | nil => simp
    | cons entity entities ih =>
      intro found
      rw [List.foldl_cons, ih, ExtTreeSet.mem_insertMany_list, List.contains_iff_mem]
      simp only [List.mem_cons, exists_eq_or_imp, or_assoc]
  unfold LocalContextBuilder.positionsOf
  rw [hfold]
  simp

theorem positionsOf_append (entities : List Entity) (entity : Entity) :
    builder.positionsOf (entities ++ [entity]) = (builder.positionsOf entities).insertMany
      ((builder.index.relationshipsByEntity[entity.title]?).getD []) := by
  unfold LocalContextBuilder.positionsOf
  rw [List.foldl_append]
  rfl

/-- The positions that are found are those of the relationships that touch the entities. -/
theorem Indexed.mem_positionsOf (h : builder.Indexed) {entities : List Entity} {position : ℕ} :
    position ∈ builder.positionsOf entities ↔
      ∃ relationship, builder.relationships[position]? = some relationship ∧
        (relationship.source ∈ titlesOf entities ∨ relationship.target ∈ titlesOf entities) := by
  simp only [LocalContextBuilder.mem_positionsOf, h.relationshipsByEntity, mem_positions,
    titlesOf, List.mem_map]
  constructor
  · rintro ⟨entity, hentity, relationship, hrow, hends⟩
    refine ⟨relationship, hrow, ?_⟩
    rcases hends with hsource | htarget
    · exact Or.inl ⟨entity, hentity, hsource.symm⟩
    · exact Or.inr ⟨entity, hentity, htarget.symm⟩
  · rintro ⟨relationship, hrow, ⟨entity, hentity, hsource⟩ | ⟨entity, hentity, htarget⟩⟩
    · exact ⟨entity, hentity, relationship, hrow, Or.inl hsource.symm⟩
    · exact ⟨entity, hentity, relationship, hrow, Or.inr htarget.symm⟩

theorem Indexed.filterMap_positionsOf (h : builder.Indexed) (entities : List Entity) :
    (builder.positionsOf entities).toList.filterMap (builder.relationships[·]?) =
      touching (titlesOf entities) builder.relationships :=
  filterMap_toList fun _ => h.mem_positionsOf

end LocalContextBuilder

/-! ### Relationships -/

section Relationships

variable {titles : List String} {relationships : List Relationship}

instance : TransCmp compareRank :=
  @TransCmp.opposite _ _ (@transCmp_on _ _ compare _ fun relationship : Relationship =>
    relationship.rank.getD 0)

instance (titles : List String) (relationships : List Relationship) :
    TransCmp (compareNeighbors titles relationships) :=
  @instTransCmpCompareLex _ _ _
    (@TransCmp.opposite _ _ (@transCmp_on _ _ compare _ fun relationship : Relationship =>
      (linkedTitles titles relationships (outsideEnd titles relationship)).card)) _

theorem compareRank_of_compareNeighbors {a b : Relationship}
    (h : compareNeighbors titles relationships a b = .eq) : compareRank a b = .eq :=
  (Ordering.then_eq_eq.mp h).2

theorem filter_touching {p q : Relationship → Prop} [DecidablePred p] [DecidablePred q]
    (hpq : ∀ relationship, p relationship ↔ q relationship)
    (h : ∀ relationship, q relationship →
      relationship.source ∈ titles ∨ relationship.target ∈ titles) :
    (touching titles relationships).filter (fun relationship => p relationship) =
      relationships.filter fun relationship => q relationship := by
  unfold touching
  rw [List.filter_filter]
  refine List.filter_congr fun relationship _ => ?_
  by_cases hq : q relationship
  · simp only [hpq, hq, h relationship hq, decide_true, Bool.and_self]
  · simp only [hpq, hq, decide_false, Bool.false_and]

variable {relationship : Relationship}

theorem mem_outNetwork :
    relationship ∈ outNetwork titles relationships ↔ relationship ∈ relationships ∧
      ((relationship.source ∈ titles ∧ relationship.target ∉ titles) ∨
        (relationship.target ∈ titles ∧ relationship.source ∉ titles)) := by
  unfold outNetwork
  simp only [List.mem_append, List.mem_filter, decide_eq_true_eq, and_or_left]

/-- The end inside of the titles. -/
def insideEnd (titles : List String) (relationship : Relationship) : String :=
  if relationship.source ∈ titles then relationship.source else relationship.target

theorem outsideEnd_notMem (h : relationship ∈ outNetwork titles relationships) :
    outsideEnd titles relationship ∉ titles := by
  unfold outsideEnd
  rcases (mem_outNetwork.mp h).2 with ⟨hsource, htarget⟩ | ⟨-, hsource⟩
  · rw [if_pos hsource]
    exact htarget
  · rw [if_neg hsource]
    exact hsource

/-- The links of an end outside, by the relationships of the table. -/
theorem exists_outNetwork_iff {outside title : String} (h : outside ∉ titles) :
    (∃ other ∈ outNetwork titles relationships,
        outsideEnd titles other = outside ∧ insideEnd titles other = title) ↔
      title ∈ titles ∧ ∃ relationship ∈ relationships,
        (relationship.source = title ∧ relationship.target = outside) ∨
          (relationship.target = title ∧ relationship.source = outside) := by
  simp only [mem_outNetwork]
  constructor
  · rintro ⟨other, ⟨hrow, ⟨hsource, htarget⟩ | ⟨htarget, hsource⟩⟩, rfl, rfl⟩
    · simp only [insideEnd, outsideEnd, if_pos hsource]
      exact ⟨hsource, other, hrow, Or.inl ⟨rfl, rfl⟩⟩
    · simp only [insideEnd, outsideEnd, if_neg hsource]
      exact ⟨htarget, other, hrow, Or.inr ⟨rfl, rfl⟩⟩
  · rintro ⟨htitle, relationship, hrow, ⟨rfl, rfl⟩ | ⟨rfl, rfl⟩⟩
    · refine ⟨relationship, ⟨hrow, Or.inl ⟨htitle, h⟩⟩, ?_⟩
      simp only [insideEnd, outsideEnd, if_pos htitle, and_self]
    · refine ⟨relationship, ⟨hrow, Or.inr ⟨htitle, h⟩⟩, ?_⟩
      simp only [insideEnd, outsideEnd, if_neg h, and_self]

theorem outsideAndNeighbor_eq (relationship : Relationship) :
    outsideAndNeighbor (ExtTreeSet.ofList titles) relationship =
      (outsideEnd titles relationship, insideEnd titles relationship) := by
  unfold outsideAndNeighbor outsideEnd insideEnd
  simp only [mem_ofList]
  split_ifs <;> rfl

theorem mem_neighborsByOutside {selectedNames : ExtTreeSet String}
    {outRanked : List RankedRelationship} {outside neighbor : String} :
    neighbor ∈ ((neighborsByOutside selectedNames outRanked)[outside]?).getD ∅ ↔
      ∃ ranked ∈ outRanked,
        outsideAndNeighbor selectedNames ranked.relationship = (outside, neighbor) := by
  have hfold : ∀ neighbors : ExtTreeMap String (ExtTreeSet String),
      neighbor ∈ ((outRanked.foldl (fun neighbors ranked =>
        neighbors.alter (outsideAndNeighbor selectedNames ranked.relationship).1 fun found =>
          some ((found.getD ∅).insert (outsideAndNeighbor selectedNames ranked.relationship).2))
          neighbors)[outside]?).getD ∅ ↔
      neighbor ∈ (neighbors[outside]?).getD ∅ ∨ ∃ ranked ∈ outRanked,
        outsideAndNeighbor selectedNames ranked.relationship = (outside, neighbor) := by
    induction outRanked with
    | nil => simp
    | cons ranked outRanked ih =>
      intro neighbors
      rw [List.foldl_cons, ih]
      simp only [List.mem_cons, exists_eq_or_imp, ← or_assoc]
      refine or_congr_left ?_
      cases outsideAndNeighbor selectedNames ranked.relationship with
      | mk other inside =>
        dsimp only
        rw [ExtTreeMap.getElem?_alter, Prod.mk.injEq]
        by_cases hother : other = outside
        · rw [if_pos (LawfulEqCmp.compare_eq_iff_eq.mpr hother), Option.getD_some,
            ExtTreeSet.mem_insert, LawfulEqCmp.compare_eq_iff_eq, hother]
          simp only [true_and]
          exact or_comm
        · rw [if_neg fun heq => hother (LawfulEqCmp.compare_eq_iff_eq.mp heq)]
          simp only [hother, false_and, or_false]
  refine (hfold ∅).trans ?_
  simp

/-- The neighbors of an end outside are the titles that are linked to it. -/
theorem links_eq {outRanked : List RankedRelationship}
    (hout : ∀ relationship, (∃ ranked ∈ outRanked, ranked.relationship = relationship) ↔
      relationship ∈ outNetwork titles relationships)
    (h : relationship ∈ outNetwork titles relationships) :
    ((neighborsByOutside (ExtTreeSet.ofList titles) outRanked)[
        (outsideAndNeighbor (ExtTreeSet.ofList titles) relationship).1]?).map (·.size) =
      some (linkedTitles titles relationships (outsideEnd titles relationship)).card := by
  have hneighbors : ∀ title,
      title ∈ ((neighborsByOutside (ExtTreeSet.ofList titles) outRanked)[
        outsideEnd titles relationship]?).getD ∅ ↔
      ∃ other ∈ outNetwork titles relationships,
        outsideEnd titles other = outsideEnd titles relationship ∧
          insideEnd titles other = title := by
    intro title
    rw [mem_neighborsByOutside]
    simp only [outsideAndNeighbor_eq, Prod.mk.injEq]
    constructor
    · rintro ⟨ranked, hranked, hends⟩
      exact ⟨ranked.relationship, (hout _).mp ⟨ranked, hranked, rfl⟩, hends⟩
    · rintro ⟨other, hother, hends⟩
      obtain ⟨ranked, hranked, rfl⟩ := (hout _).mpr hother
      exact ⟨ranked, hranked, hends⟩
  rw [outsideAndNeighbor_eq]
  dsimp only
  cases hfound : (neighborsByOutside (ExtTreeSet.ofList titles) outRanked)[
      outsideEnd titles relationship]? with
  | none =>
    have hself := (hneighbors (insideEnd titles relationship)).mpr ⟨relationship, h, rfl, rfl⟩
    rw [hfound] at hself
    exact absurd hself ExtTreeSet.not_mem_empty
  | some neighbors =>
    rw [hfound, Option.getD_some] at hneighbors
    rw [Option.map_some, ← card_pointsOf]
    refine congrArg (fun titles : Finset String => some titles.card) ?_
    ext title
    rw [mem_pointsOf, hneighbors, linkedTitles, Finset.mem_filter, List.mem_toFinset,
      exists_outNetwork_iff (outsideEnd_notMem h)]

/-! ### The filter -/

def unlinked (relationship : Relationship) : RankedRelationship := ⟨relationship, none⟩

/-- An end outside with its links. -/
def linked (titles : List String) (relationships : List Relationship)
    (relationship : Relationship) : RankedRelationship :=
  ⟨relationship,
    some (linkedTitles titles relationships (outsideEnd titles relationship)).card⟩

theorem sortBy_unlinked (rows : List Relationship) :
    sortBy compareRelationshipRank (rows.map fun relationship => ⟨relationship, none⟩) =
      (sortBy compareRank rows).map unlinked :=
  (map_sortBy fun _ _ => rfl).symm

theorem map_sortBy_relationship (links : Relationship → Option ℕ) (rows : List Relationship) :
    (sortBy compareRelationshipRank
        (rows.map fun relationship => ⟨relationship, links relationship⟩)).map (·.relationship) =
      sortBy compareRank rows := by
  have hrank : ∀ a b : RankedRelationship,
      compareRank a.relationship b.relationship = compareRelationshipRank a b := fun _ _ => rfl
  rw [map_sortBy hrank, List.map_map]
  exact congrArg (sortBy compareRank) (List.map_id _)

theorem sortBy_linked (rows : List Relationship) :
    sortBy compareLinks (rows.map (linked titles relationships)) =
      (sortBy (compareNeighbors titles relationships) rows).map (linked titles relationships) :=
  (map_sortBy fun _ _ => rfl).symm

theorem filter_inNetwork :
    (touching titles relationships).filter (fun relationship =>
        relationship.source ∈ ExtTreeSet.ofList titles ∧
          relationship.target ∈ ExtTreeSet.ofList titles) =
      inNetwork titles relationships :=
  filter_touching (fun _ => by simp only [mem_ofList]) fun _ hends => Or.inl hends.1

theorem filter_outNetwork :
    ((touching titles relationships).filter fun relationship =>
        relationship.source ∈ ExtTreeSet.ofList titles ∧
          relationship.target ∉ ExtTreeSet.ofList titles) ++
      ((touching titles relationships).filter fun relationship =>
        relationship.target ∈ ExtTreeSet.ofList titles ∧
          relationship.source ∉ ExtTreeSet.ofList titles) =
      outNetwork titles relationships := by
  have hsource : (touching titles relationships).filter (fun relationship =>
      relationship.source ∈ ExtTreeSet.ofList titles ∧
        relationship.target ∉ ExtTreeSet.ofList titles) =
      relationships.filter fun relationship =>
        relationship.source ∈ titles ∧ relationship.target ∉ titles :=
    filter_touching (fun _ => by simp only [mem_ofList]) fun _ hends => Or.inl hends.1
  have htarget : (touching titles relationships).filter (fun relationship =>
      relationship.target ∈ ExtTreeSet.ofList titles ∧
        relationship.source ∉ ExtTreeSet.ofList titles) =
      relationships.filter fun relationship =>
        relationship.target ∈ titles ∧ relationship.source ∉ titles :=
    filter_touching (fun _ => by simp only [mem_ofList]) fun _ hends => Or.inr hends.1
  rw [hsource, htarget]
  rfl

/-- The links that the filter counts at the ends outside. -/
theorem map_links :
    (((sortBy compareRank (outNetwork titles relationships)).map unlinked).map fun ranked =>
      { ranked with
        links := ((neighborsByOutside (ExtTreeSet.ofList titles)
          ((sortBy compareRank (outNetwork titles relationships)).map unlinked))[
            (outsideAndNeighbor (ExtTreeSet.ofList titles)
              ranked.relationship).1]?).map (·.size) }) =
      (sortBy compareRank (outNetwork titles relationships)).map
        (linked titles relationships) := by
  rw [List.map_map]
  refine List.map_congr_left fun relationship hrelationship => ?_
  refine congrArg (RankedRelationship.mk relationship) ?_
  refine links_eq (fun other => ?_) (mem_sortBy.mp hrelationship)
  simp only [List.mem_map, mem_sortBy, exists_exists_and_eq_and]
  exact exists_eq_right

/-- **The selected relationships are those of the neighbourhood.** -/
theorem filterRelationshipsCapture_eq {selectedEntities : List Entity}
    {relationshipPositions : ExtTreeSet ℕ}
    (h : relationshipPositions.toList.filterMap (relationships[·]?) =
      touching (titlesOf selectedEntities) relationships)
    (topKRelationships : ℕ) (learnedLinks : ExtTreeMap String ℕ) (captureRankFiltered : Bool) :
    (filterRelationshipsCapture selectedEntities relationships relationshipPositions
        topKRelationships learnedLinks captureRankFiltered).1.selected.map (·.relationship) =
      neighbourhood (titlesOf selectedEntities) relationships topKRelationships
        selectedEntities.length := by
  have htitles : selectedEntities.map (·.title) = titlesOf selectedEntities := rfl
  unfold filterRelationshipsCapture neighbourhood
  dsimp only
  rw [h, htitles, filter_inNetwork, filter_outNetwork, sortBy_unlinked, List.length_map,
    length_sortBy]
  by_cases hmany : 1 < (outNetwork (titlesOf selectedEntities) relationships).length
  · have hsorted : sortBy (compareNeighbors (titlesOf selectedEntities) relationships)
        (sortBy compareRank (outNetwork (titlesOf selectedEntities) relationships)) =
        sortBy (compareNeighbors (titlesOf selectedEntities) relationships)
          (outNetwork (titlesOf selectedEntities) relationships) :=
      sortBy_sortBy fun _ _ => compareRank_of_compareNeighbors
    rw [if_pos hmany, if_pos hmany, map_links, sortBy_linked, hsorted]
    dsimp only
    rw [List.map_append, map_sortBy_relationship, ← List.map_take, List.map_map]
    exact congrArg (_ ++ ·) (List.map_id _)
  · have hout : sortBy compareRank (outNetwork (titlesOf selectedEntities) relationships) =
        outNetwork (titlesOf selectedEntities) relationships :=
      sortBy_eq_self (Nat.le_of_not_lt hmany)
    rw [if_neg hmany, if_neg hmany, hout]
    dsimp only
    rw [List.map_append, map_sortBy_relationship, List.map_map]
    exact congrArg (_ ++ ·) (List.map_id _)

theorem count_filter_eq_ite {p : Relationship → Prop} [DecidablePred p] :
    (relationships.filter fun relationship => p relationship).count relationship =
      if p relationship then relationships.count relationship else 0 := by
  split_ifs with hp
  · exact List.count_filter (decide_eq_true hp)
  · refine List.count_eq_zero.mpr fun hmem => hp ?_
    exact of_decide_eq_true (List.mem_filter.mp hmem).2

/-- No row of the table is in the neighbourhood twice. -/
theorem neighbourhood_subperm (topKRelationships selectedCount : ℕ) :
    (neighbourhood titles relationships topKRelationships selectedCount).Subperm
      relationships := by
  have hall : (inNetwork titles relationships ++ outNetwork titles relationships).Subperm
      relationships := by
    refine List.subperm_ext_iff.mpr fun relationship _ => ?_
    unfold inNetwork outNetwork
    rw [List.count_append, List.count_append, count_filter_eq_ite, count_filter_eq_ite,
      count_filter_eq_ite]
    by_cases hsource : relationship.source ∈ titles <;>
      by_cases htarget : relationship.target ∈ titles <;> simp [hsource, htarget]
  have hout : (if 1 < (outNetwork titles relationships).length then
      (sortBy (compareNeighbors titles relationships) (outNetwork titles relationships)).take
        (usizeMul topKRelationships selectedCount)
      else outNetwork titles relationships).Subperm (outNetwork titles relationships) := by
    split_ifs
    · exact (List.take_sublist _ _).subperm.trans sortBy_perm.subperm
    · exact List.Subperm.refl _
  exact (sortBy_perm.subperm.append hout).trans hall

end Relationships

/-! ### Text units -/

theorem countRelationships_eq (relationships : List Relationship) (title : String)
    (textUnit : TextUnit) :
    countRelationships (relationshipsOf relationships title) textUnit =
      relationshipsIn relationships title textUnit := by
  unfold countRelationships relationshipsIn
  split_ifs
  · rw [List.countP_eq_length_filter]
    simp only [List.contains_eq_mem]
  · rw [List.countP_eq_length_filter]
    simp only [mem_ofList]

/-- The references to text units, in the order in which they are followed. -/
def references (selectedEntities : List Entity) : List ((Entity × ℕ) × String) :=
  selectedEntities.zipIdx.flatMap fun entity => entity.1.textUnitIds.map fun id => (entity, id)

theorem find?_textUnitIds (entity : Entity × ℕ) (id : String) :
    ((entity.1.textUnitIds.map fun id => (entity, id)).find? fun reference => reference.2 = id) =
      if id ∈ entity.1.textUnitIds then some (entity, id) else none := by
  induction entity.1.textUnitIds with
  | nil => rfl
  | cons first rest ih =>
    rw [List.map_cons, List.find?_cons]
    by_cases hfirst : first = id
    · simp [hfirst]
    · simp only [hfirst, decide_false, ih, List.mem_cons, Ne.symm hfirst, false_or]

theorem find?_references (selectedEntities : List Entity) (id : String) :
    ((references selectedEntities).find? fun reference => reference.2 = id) =
      (firstReference selectedEntities id).map fun entity => (entity, id) := by
  unfold references firstReference
  induction selectedEntities.zipIdx with
  | nil => rfl
  | cons entity rest ih =>
    rw [List.flatMap_cons, List.find?_append, find?_textUnitIds, List.find?_cons, ih]
    by_cases hid : id ∈ entity.1.textUnitIds
    · simp only [hid, if_true, decide_true, Option.some_or, Option.map_some]
    · simp only [hid, if_false, decide_false, Option.none_or]

namespace LocalContextBuilder

variable {builder : LocalContextBuilder}

/-- What is known once some references have been followed. -/
structure Followed (builder : LocalContextBuilder) (followed : List ((Entity × ℕ) × String))
    (state : ExtTreeSet String × SourceSelection) : Prop where
  seen : ∀ id, id ∈ state.1 ↔ id ∈ followed.map (·.2)
  ranked : ∀ textUnit order count, (textUnit, order, count) ∈ state.2.ranked ↔
    textUnitOf builder.textUnits textUnit.id = some textUnit ∧
      ∃ entity, (followed.find? fun reference => reference.2 = textUnit.id) =
          some ((entity, order), textUnit.id) ∧
        relationshipsIn builder.relationships entity.title textUnit = count
  nodup : (state.2.ranked.map fun ranked => ranked.1.id).Nodup

theorem id_of_textUnitOf {textUnits : List TextUnit} {id : String} {textUnit : TextUnit}
    (h : textUnitOf textUnits id = some textUnit) : textUnit.id = id := by
  unfold textUnitOf at h
  simpa using List.find?_some h

/-- A reference that is followed later does not come first. -/
theorem find?_append_singleton {followed : List ((Entity × ℕ) × String)}
    {reference : (Entity × ℕ) × String} {id : String}
    (h : id ∈ followed.map (·.2) ∨ reference.2 ≠ id) :
    ((followed ++ [reference]).find? fun reference => reference.2 = id) =
      followed.find? fun reference => reference.2 = id := by
  rw [List.find?_append]
  rcases h with hmem | hne
  · obtain ⟨first, hfirst, hid⟩ := List.mem_map.mp hmem
    have hsome : (followed.find? fun reference => reference.2 = id).isSome :=
      List.find?_isSome.mpr ⟨first, hfirst, decide_eq_true hid⟩
    exact Option.or_eq_left_of_isSome hsome
  · simp [hne]

theorem Followed.selectTextUnit (h : builder.Indexed) {followed : List ((Entity × ℕ) × String)}
    {state : ExtTreeSet String × SourceSelection} (hfollowed : Followed builder followed state)
    (reference : (Entity × ℕ) × String) :
    Followed builder (followed ++ [reference])
      (builder.selectTextUnit reference.1.2 (builder.entityRelationships reference.1.1) state
        reference.2) := by
  obtain ⟨seen, selection⟩ := state
  obtain ⟨entity, id⟩ := reference
  obtain ⟨hseen, hranked, hnodup⟩ := hfollowed
  dsimp only at hseen hranked hnodup
  unfold LocalContextBuilder.selectTextUnit
  dsimp only
  by_cases hid : id ∈ seen
  · -- a reference that has been followed before changes nothing
    rw [if_pos hid]
    have hmem := (hseen id).mp hid
    constructor
    · intro other
      rw [hseen, List.map_append, List.mem_append]
      refine ⟨Or.inl, fun h => h.elim (fun h => h) fun h => ?_⟩
      rwa [List.mem_singleton.mp h]
    · intro textUnit order count
      rw [hranked, find?_append_singleton]
      by_cases hsame : id = textUnit.id
      · exact Or.inl (hsame ▸ hmem)
      · exact Or.inr hsame
    · exact hnodup
  · rw [if_neg hid, h.textUnitById]
    have hnotMem : id ∉ followed.map (·.2) := fun hmem => hid ((hseen id).mpr hmem)
    have hseen' : ∀ other, other ∈ seen.insert id ↔
        other ∈ (followed ++ [(entity, id)]).map (·.2) := by
      intro other
      rw [ExtTreeSet.mem_insert, hseen, LawfulEqCmp.compare_eq_iff_eq, List.map_append,
        List.mem_append, List.map_singleton, List.mem_singleton, or_comm, @eq_comm _ id]
    cases hunit : textUnitOf builder.textUnits id with
    | none =>
      refine ⟨hseen', fun textUnit order count => ?_, hnodup⟩
      rw [hranked]
      by_cases hsame : id = textUnit.id
      · subst hsame
        simp only [hunit, reduceCtorEq, false_and]
      · rw [find?_append_singleton (Or.inr hsame)]
    | some found =>
      obtain rfl := id_of_textUnitOf hunit
      have hnone : (followed.find? fun reference => reference.2 = found.id) = none := by
        refine List.find?_eq_none.mpr fun reference hreference hsame => hnotMem ?_
        exact List.mem_map.mpr ⟨reference, hreference, of_decide_eq_true hsame⟩
      refine ⟨hseen', fun textUnit order count => ?_, ?_⟩
      · rw [List.mem_append, List.mem_singleton, hranked]
        by_cases hsame : found.id = textUnit.id
        · -- its first reference is this one
          rw [← hsame, hunit, List.find?_append, hnone]
          simp only [Option.some.injEq, reduceCtorEq, false_and, exists_false, and_false,
            h.entityRelationships, countRelationships_eq, Prod.mk.injEq, false_or, decide_true,
            List.find?_cons_of_pos, Option.or_some, Option.getD_none, and_true]
          constructor
          · rintro ⟨rfl, rfl, rfl⟩
            exact ⟨rfl, entity.1, rfl, rfl⟩
          · rintro ⟨rfl, first, rfl, rfl⟩
            exact ⟨rfl, rfl, rfl⟩
        · rw [find?_append_singleton (Or.inr hsame)]
          refine or_iff_left fun heq => hsame ?_
          rw [(Prod.mk.inj heq).1]
      · rw [List.map_append, List.nodup_append]
        refine ⟨hnodup, List.nodup_singleton _, fun id hid' other hother => ?_⟩
        obtain ⟨⟨textUnit, order, count⟩, hmem, rfl⟩ := List.mem_map.mp hid'
        rw [List.map_singleton, List.mem_singleton] at hother
        obtain ⟨-, first, hfirst, -⟩ := (hranked textUnit order count).mp hmem
        rintro hsame
        rw [hsame, hother, hnone] at hfirst
        cases hfirst

theorem followed_selectSourceTextUnits (h : builder.Indexed) (selectedEntities : List Entity)
    (start : SourceSelection) (hstart : start.ranked = []) :
    Followed builder (references selectedEntities)
      (selectedEntities.zipIdx.foldl (fun state entity => entity.1.textUnitIds.foldl
        (builder.selectTextUnit entity.2 (builder.entityRelationships entity.1)) state)
          (∅, start)) := by
  have hflat : selectedEntities.zipIdx.foldl (fun state entity => entity.1.textUnitIds.foldl
      (builder.selectTextUnit entity.2 (builder.entityRelationships entity.1)) state) (∅, start) =
      (references selectedEntities).foldl (fun state reference => builder.selectTextUnit
        reference.1.2 (builder.entityRelationships reference.1.1) state reference.2)
          (∅, start) := by
    unfold references
    rw [List.foldl_flatMap]
    simp only [List.foldl_map]
  rw [hflat]
  induction references selectedEntities using List.reverseRecOn with
  | nil =>
    constructor
    · simp
    · simp [hstart]
    · simp [hstart]
  | append_singleton followed reference ih =>
    rw [List.foldl_append]
    exact ih.selectTextUnit h reference

theorem Indexed.mem_selectSourceTextUnits (h : builder.Indexed) {selectedEntities : List Entity}
    {captureMissing : Bool} {textUnit : TextUnit} {order count : ℕ} :
    (textUnit, order, count) ∈
        (builder.selectSourceTextUnits selectedEntities captureMissing).ranked ↔
      textUnitOf builder.textUnits textUnit.id = some textUnit ∧
        ∃ entity, firstReference selectedEntities textUnit.id = some (entity, order) ∧
          relationshipsIn builder.relationships entity.title textUnit = count := by
  have hfollowed := followed_selectSourceTextUnits h selectedEntities
    ⟨[], capture captureMissing []⟩ rfl
  unfold LocalContextBuilder.selectSourceTextUnits
  dsimp only
  rw [mem_sortBy, hfollowed.ranked]
  simp only [find?_references, Option.map_eq_some_iff, Prod.mk.injEq, and_true,
    exists_eq_right]

theorem Indexed.nodup_selectSourceTextUnits (h : builder.Indexed) (selectedEntities : List Entity)
    (captureMissing : Bool) :
    ((builder.selectSourceTextUnits selectedEntities captureMissing).ranked.map
      fun ranked => ranked.1.id).Nodup := by
  have hfollowed := followed_selectSourceTextUnits h selectedEntities
    ⟨[], capture captureMissing []⟩ rfl
  exact (sortBy_perm.map _).nodup_iff.mpr hfollowed.nodup

instance : TransCmp compareSources :=
  @instTransCmpCompareLex _ _ _
    (@transCmp_on _ _ compare _ fun ranked : TextUnit × ℕ × ℕ => ranked.2.1)
    (@TransCmp.opposite _ _ (@transCmp_on _ _ compare _ fun ranked : TextUnit × ℕ × ℕ =>
      ranked.2.2))

theorem pairwise_selectSourceTextUnits (selectedEntities : List Entity) (captureMissing : Bool) :
    (builder.selectSourceTextUnits selectedEntities captureMissing).ranked.Pairwise fun a b =>
      a.2.1 < b.2.1 ∨ (a.2.1 = b.2.1 ∧ b.2.2 ≤ a.2.2) := by
  refine List.Pairwise.imp (fun {a b} h => ?_) sortBy_pairwise
  unfold compareSources at h
  rw [Ordering.isLE_then_iff_or] at h
  rcases h with hlt | ⟨heq, hle⟩
  · exact Or.inl (Nat.compare_eq_lt.mp hlt)
  · exact Or.inr ⟨Nat.compare_eq_eq.mp heq, Nat.isLE_compare.mp hle⟩

/-- **The index gives the neighbourhood of the selected entities**: the relationships that touch
them, the ranked ones among these, and the text units that they refer to. -/
theorem neighbourhood_indexed (builder : LocalContextBuilder) (h : builder.Indexed)
    (selectedEntities : List Entity) (topKRelationships : ℕ) (learnedLinks : ExtTreeMap String ℕ)
    (captureRankFiltered captureMissing : Bool) :
    let titles := titlesOf selectedEntities
    let relationshipPositions := builder.positionsOf selectedEntities
    let selected := (filterRelationshipsCapture selectedEntities builder.relationships
      relationshipPositions topKRelationships learnedLinks captureRankFiltered).1.selected.map
        (·.relationship)
    let ranked := (builder.selectSourceTextUnits selectedEntities captureMissing).ranked
    relationshipPositions.toList.filterMap (builder.relationships[·]?) =
        touching titles builder.relationships ∧
      selected = neighbourhood titles builder.relationships topKRelationships
        selectedEntities.length ∧
      selected.Subperm builder.relationships ∧
      (∀ textUnit order count, (textUnit, order, count) ∈ ranked ↔
        textUnitOf builder.textUnits textUnit.id = some textUnit ∧
          ∃ entity, firstReference selectedEntities textUnit.id = some (entity, order) ∧
            relationshipsIn builder.relationships entity.title textUnit = count) ∧
      (ranked.map fun ranked => ranked.1.id).Nodup ∧
      ranked.Pairwise fun a b => a.2.1 < b.2.1 ∨ (a.2.1 = b.2.1 ∧ b.2.2 ≤ a.2.2) := by
  have hselected := filterRelationshipsCapture_eq (h.filterMap_positionsOf selectedEntities)
    topKRelationships learnedLinks captureRankFiltered
  refine ⟨h.filterMap_positionsOf selectedEntities, hselected, ?_,
    fun _ _ _ => h.mem_selectSourceTextUnits,
    h.nodup_selectSourceTextUnits selectedEntities captureMissing,
    pairwise_selectSourceTextUnits selectedEntities captureMissing⟩
  rw [hselected]
  exact neighbourhood_subperm topKRelationships selectedEntities.length

end LocalContextBuilder

def linkedRelationships : List Relationship :=
  [⟨"r1", none, "ALICE", "CAFE", none, none, some 9, []⟩,
    ⟨"r2", none, "DOCK", "BOB", none, none, some 1, ["t1"]⟩,
    ⟨"r3", none, "ALICE", "ALICE", none, none, none, []⟩,
    ⟨"r4", none, "ALICE", "DOCK", none, none, some 2, ["t1"]⟩,
    ⟨"r5", none, "CAFE", "DOCK", none, none, some 9, []⟩,
    ⟨"r6", none, "BOB", "ALICE", none, none, some 3, []⟩]

/-- Two entities with a loop and with two relationships to the same place. -/
def linkedBuilder : LocalContextBuilder where
  method := .local
  config := ⟨⟨0⟩, ⟨0⟩, 5, 10, 1, 8000⟩
  entities := [⟨"e1", none, "ALICE", none, [], ["t1"], none⟩, ⟨"e2", none, "BOB", none, [], [], none⟩]
  reports := []
  textUnits := [⟨"t1", "1", "Boats.", []⟩]
  relationships := linkedRelationships
  covariates := []
  index := QueryDataIndex.new
    [⟨"e1", none, "ALICE", none, [], ["t1"], none⟩, ⟨"e2", none, "BOB", none, [], [], none⟩] []
    [⟨"t1", "1", "Boats.", []⟩] linkedRelationships []
  ops :=
    { tokenizer := .ofMeasure String.utf8ByteSize
      csv := fun records => .ok (String.join (records.map delimitedRecord))
      proportion := fun total _ => total / 4
      localProportion := fun _ _ => ⟨0⟩
      pythonF64 := fun _ => "1.0"
      toLowercase := id }

/-- The loop is found once, the relationship between other places is not, and the text unit has one
relationship of the first entity that refers to it. -/
theorem neighbourhood_indexed_linked :
    ((linkedBuilder.positionsOf linkedBuilder.entities).toList.filterMap
        (linkedBuilder.relationships[·]?)).map (·.id) = ["r1", "r2", "r3", "r4", "r6"] ∧
      (⟨"t1", "1", "Boats.", []⟩, 0, 1) ∈
        (linkedBuilder.selectSourceTextUnits linkedBuilder.entities false).ranked := by
  obtain ⟨hfound, -, -, hranked, -, -⟩ := linkedBuilder.neighbourhood_indexed ⟨_, rfl⟩
    linkedBuilder.entities 1 ∅ false false
  rw [hfound, hranked]
  exact ⟨by decide, by decide, ⟨"e1", none, "ALICE", none, [], ["t1"], none⟩, by decide, by decide⟩

end GraphLoom.Query.Local
