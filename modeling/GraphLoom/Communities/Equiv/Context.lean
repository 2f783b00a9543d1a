import GraphLoom.Communities.Context
import GraphLoom.Foundation.Fallible
import GraphLoom.Foundation.Index
import GraphLoom.Foundation.Greedy

/-!
# A context is the longest prefix that is affordable

The text of a context is that of the longest prefix of the ordered relationships whose prefixes are
all within the limit, or of the first one alone (`sortContext_affordable`).  Its entities are the
endpoints that the community has, the first of each identifier.
-/

namespace GraphLoom.Communities

open Foundation Std

/-! ### What has been added -/

section Added

variable {entitiesByTitle : ExtTreeMap String EntityContextRow}

/-- The entities of the endpoints, in their order. -/
def endpointsOf (entitiesByTitle : ExtTreeMap String EntityContextRow)
    (relationships : List RelationshipContextRow) : List EntityContextRow :=
  relationships.flatMap fun relationship =>
    [relationship.source, relationship.target].filterMap (entitiesByTitle[·]?)

/-- The first endpoint and the first relationship of each identifier. -/
def renderedOf (entitiesByTitle : ExtTreeMap String EntityContextRow)
    (relationships : List RelationshipContextRow) : RenderRecords :=
  ⟨firstOfKeys (·.humanReadableId) (endpointsOf entitiesByTitle relationships),
    firstOfKeys (·.humanReadableId) relationships⟩

/-- The state has the first of each identifier among the entities and the relationships. -/
structure ContextState.Holds (state : ContextState) (entities : List EntityContextRow)
    (relationships : List RelationshipContextRow) : Prop where
  entityIds : ∀ id, id ∈ state.entityIds ↔ id ∈ entities.map (·.humanReadableId)
  relationshipIds : ∀ id, id ∈ state.relationshipIds ↔ id ∈ relationships.map (·.humanReadableId)
  entities : state.rendered.entities = firstOfKeys (·.humanReadableId) entities
  relationships : state.rendered.relationships = firstOfKeys (·.humanReadableId) relationships

variable {state : ContextState} {entities : List EntityContextRow}
  {relationships : List RelationshipContextRow}

theorem ContextState.empty_holds : ContextState.empty.Holds [] [] := by
  refine ⟨?_, ?_, rfl, rfl⟩
  · intro id
    simp [ContextState.empty]
  · intro id
    simp [ContextState.empty]

theorem mem_insert_keys {ρ : Type} {key : ρ → ℤ} {ids : ExtTreeSet ℤ} {rows : List ρ} {row : ρ}
    (h : ∀ id, id ∈ ids ↔ id ∈ rows.map key) (id : ℤ) :
    id ∈ ids.insert (key row) ↔ id ∈ (rows ++ [row]).map key := by
  rw [ExtTreeSet.mem_insert, LawfulEqCmp.compare_eq_iff_eq, h id, List.map_append,
    List.map_singleton, List.mem_append, List.mem_singleton, or_comm, @eq_comm _ id]

theorem mem_keys_concat {ρ : Type} {key : ρ → ℤ} {rows : List ρ} {row : ρ}
    (h : key row ∈ rows.map key) (id : ℤ) :
    id ∈ rows.map key ↔ id ∈ (rows ++ [row]).map key := by
  rw [List.map_append, List.map_singleton, List.mem_append, List.mem_singleton]
  refine ⟨.inl, ?_⟩
  rintro (hid | rfl)
  · exact hid
  · exact h

theorem ContextState.Holds.addEndpoint (h : state.Holds entities relationships) (title : String) :
    (state.addEndpoint entitiesByTitle title).Holds
      (entities ++ (entitiesByTitle[title]?).toList) relationships := by
  unfold ContextState.addEndpoint
  cases entitiesByTitle[title]? with
  | none =>
    rw [Option.toList_none, List.append_nil]
    exact h
  | some entity =>
    rw [Option.toList_some]
    dsimp only
    split_ifs with hseen
    · rw [h.entityIds] at hseen
      refine ⟨?_, h.relationshipIds, ?_, h.relationships⟩
      · intro id
        rw [h.entityIds]
        exact mem_keys_concat hseen id
      · rw [h.entities, firstOfKeys_concat, addFirst, if_pos (mem_keys_firstOfKeys.mpr hseen)]
    · rw [h.entityIds] at hseen
      refine ⟨mem_insert_keys h.entityIds, h.relationshipIds, ?_, h.relationships⟩
      show state.rendered.entities ++ [entity] = _
      rw [h.entities, firstOfKeys_concat, addFirst, if_neg (mt mem_keys_firstOfKeys.mp hseen)]

theorem ContextState.Holds.addRelationship (h : state.Holds entities relationships)
    (relationship : RelationshipContextRow) :
    (state.addRelationship relationship).Holds entities (relationships ++ [relationship]) := by
  unfold ContextState.addRelationship
  split_ifs with hseen
  · rw [h.relationshipIds] at hseen
    refine ⟨h.entityIds, ?_, h.entities, ?_⟩
    · intro id
      rw [h.relationshipIds]
      exact mem_keys_concat hseen id
    · rw [h.relationships, firstOfKeys_concat, addFirst, if_pos (mem_keys_firstOfKeys.mpr hseen)]
  · rw [h.relationshipIds] at hseen
    refine ⟨h.entityIds, mem_insert_keys h.relationshipIds, h.entities, ?_⟩
    show state.rendered.relationships ++ [relationship] = _
    rw [h.relationships, firstOfKeys_concat, addFirst, if_neg (mt mem_keys_firstOfKeys.mp hseen)]

theorem filterMap_pair {α β : Type} (f : α → Option β) (a b : α) :
    [a, b].filterMap f = (f a).toList ++ (f b).toList := by
  rw [List.filterMap_cons, List.filterMap_cons, List.filterMap_nil]
  cases f a <;> cases f b <;> rfl

theorem ContextState.Holds.add
    (h : state.Holds (endpointsOf entitiesByTitle relationships) relationships)
    (relationship : RelationshipContextRow) :
    (state.add entitiesByTitle relationship).Holds
      (endpointsOf entitiesByTitle (relationships ++ [relationship]))
      (relationships ++ [relationship]) := by
  have hendpoints : endpointsOf entitiesByTitle (relationships ++ [relationship]) =
      endpointsOf entitiesByTitle relationships ++ (entitiesByTitle[relationship.source]?).toList ++
        (entitiesByTitle[relationship.target]?).toList := by
    unfold endpointsOf
    rw [List.flatMap_append, List.flatMap_singleton, filterMap_pair, List.append_assoc]
  rw [hendpoints]
  exact ((h.addEndpoint relationship.source).addEndpoint relationship.target).addRelationship
    relationship

theorem ContextState.Holds.rendered_eq
    (h : state.Holds (endpointsOf entitiesByTitle relationships) relationships) :
    state.rendered = renderedOf entitiesByTitle relationships := by
  unfold renderedOf
  rw [← h.entities, ← h.relationships]

/-! ### The entities and the relationships -/

theorem mem_endpointsOf {entity : EntityContextRow} :
    entity ∈ endpointsOf entitiesByTitle relationships ↔ ∃ relationship ∈ relationships,
      entitiesByTitle[relationship.source]? = some entity ∨
      entitiesByTitle[relationship.target]? = some entity := by
  unfold endpointsOf
  simp only [List.mem_flatMap, List.mem_filterMap, List.mem_cons, List.not_mem_nil, or_false,
    exists_eq_or_imp, exists_eq_left]

end Added

/-! ### The loop -/

section Loop

variable {tools : ContextTools} {maxInputLength : ℕ}
  {entitiesByTitle : ExtTreeMap String EntityContextRow}

/-- The text of the relationships is within the limit. -/
def Affordable (tools : ContextTools) (maxInputLength : ℕ)
    (entitiesByTitle : ExtTreeMap String EntityContextRow)
    (relationships : List RelationshipContextRow) : Prop :=
  ∃ text tokens, renderContext tools (renderedOf entitiesByTitle relationships) = .ok text ∧
    tools.count text = .ok tokens ∧ tokens ≤ maxInputLength

/-- The loop takes the longest prefix of the rest. -/
theorem sortLoop_longest {rest before : List RelationshipContextRow} {state : ContextState}
    {context context' : String} {rendered : RenderRecords}
    (hstate : state.Holds (endpointsOf entitiesByTitle before) before)
    (h : sortLoop tools maxInputLength entitiesByTitle rest state context =
      .ok (context', rendered)) :
    ∃ count, LongestPrefix (fun i =>
        Affordable tools maxInputLength entitiesByTitle (before ++ rest.take i)) rest.length count ∧
      (count = 0 → context' = context ∧
        rendered = renderedOf entitiesByTitle (before ++ rest.take 1)) ∧
      (0 < count →
        renderContext tools (renderedOf entitiesByTitle (before ++ rest.take count)) =
          .ok context') := by
  induction rest generalizing before state context with
  | nil =>
    rw [sortLoop] at h
    cases h
    refine ⟨0, .nil, fun _ => ⟨rfl, ?_⟩, fun hpos => absurd hpos (lt_irrefl 0)⟩
    rw [List.take_nil, List.append_nil]
    exact hstate.rendered_eq
  | cons relationship rest ih =>
    have hadd := hstate.add relationship
    rw [sortLoop, bind_eq_ok] at h
    obtain ⟨candidate, hcandidate, h⟩ := h
    rw [bind_eq_ok] at h
    obtain ⟨tokens, htokens, h⟩ := h
    rw [hadd.rendered_eq] at hcandidate h
    have htake : ∀ i, before ++ (relationship :: rest).take (i + 1) =
        before ++ [relationship] ++ rest.take i := by
      intro i
      rw [List.take_succ_cons, List.append_assoc, List.singleton_append]
    have hone : before ++ (relationship :: rest).take 1 = before ++ [relationship] := rfl
    by_cases hover : maxInputLength < tokens
    · rw [if_pos hover] at h
      cases h
      refine ⟨0, .stop ?_, fun _ => ⟨rfl, rfl⟩, fun hpos => absurd hpos (lt_irrefl 0)⟩
      rintro ⟨text, tokens', htext, htokens', hle⟩
      rw [hone, hcandidate] at htext
      cases htext
      rw [htokens] at htokens'
      cases htokens'
      omega
    · rw [if_neg hover] at h
      obtain ⟨count, hlongest, hzero, hpos⟩ := ih hadd h
      refine ⟨count + 1, .step ⟨candidate, tokens, hcandidate, htokens, by omega⟩
        (hlongest.congr fun i => by rw [htake]), fun habsurd => absurd habsurd (by omega), ?_⟩
      intro _
      rw [htake]
      rcases Nat.eq_zero_or_pos count with rfl | hcount
      · -- no further relationship fits
        rw [(hzero rfl).1, List.take_zero, List.append_nil]
        exact hcandidate
      · exact hpos hcount

theorem renderNonempty_eq_ok {α : Type} {render : List α → Except GraphLoomError String}
    {rows : List α} {text : Option String} (hrows : rows ≠ [])
    (h : renderNonempty render rows = .ok text) :
    ∃ rendered, render rows = .ok rendered ∧ text = some rendered := by
  unfold renderNonempty at h
  rw [if_neg (mt List.isEmpty_iff.mp hrows)] at h
  obtain ⟨rendered, hrendered, rfl⟩ := map_eq_ok.mp h
  exact ⟨rendered, hrendered, rfl⟩

/-- The title of a table is in the text. -/
theorem renderContext_ne_empty {records : RenderRecords} {text : String}
    (hrelationships : records.relationships ≠ []) (h : renderContext tools records = .ok text) :
    text ≠ "" := by
  unfold renderContext at h
  obtain ⟨entities, -, h⟩ := bind_eq_ok.mp h
  obtain ⟨relationships, hrows, h⟩ := bind_eq_ok.mp h
  obtain ⟨rendered, hrendered, rfl⟩ := renderNonempty_eq_ok hrelationships hrows
  unfold renderRelationshipsCsv renderSection at hrendered
  obtain ⟨csv, -, hcsv⟩ := bind_eq_ok.mp hrendered
  obtain rfl := Except.ok.inj hcsv
  obtain rfl := Except.ok.inj h
  intro hempty
  have hchars := congrArg String.toList hempty
  cases entities with
  | none => simp at hchars
  | some entities => simp at hchars

end Loop

/-! ### The context -/

section Context

variable {tools : ContextTools} {maxInputLength : ℕ} {localContext : List LocalContextRecord}

instance compareRelationships_transCmp : TransCmp compareRelationships := by
  have hlex : compareRelationships = compareLex
      (fun left right => compare right.combinedDegree left.combinedDegree)
      (fun left right => compare left.humanReadableId right.humanReadableId) := rfl
  have hdegree : TransCmp fun left right : RelationshipContextRow =>
      compare right.combinedDegree left.combinedDegree :=
    @TransCmp.opposite _ _ (@transCmp_on _ _ compare _ RelationshipContextRow.combinedDegree)
  have hid : TransCmp fun left right : RelationshipContextRow =>
      compare left.humanReadableId right.humanReadableId :=
    @transCmp_on _ _ compare _ RelationshipContextRow.humanReadableId
  rw [hlex]
  infer_instance

/-- The entity of the last record with a title. -/
def nodeOf (localContext : List LocalContextRecord) (title : String) : Option EntityContextRow :=
  (localContext.reverse.find? fun record => record.title = title).map (·.entity)

theorem getElem?_entitiesByTitleOf (localContext : List LocalContextRecord) (title : String) :
    (entitiesByTitleOf localContext)[title]? = nodeOf localContext title :=
  getElem?_ofList_last

theorem nodeOf_mem {title : String} {entity : EntityContextRow}
    (h : nodeOf localContext title = some entity) :
    ∃ record ∈ localContext, record.entity = entity := by
  obtain ⟨record, hfind, rfl⟩ := Option.map_eq_some_iff.mp h
  exact ⟨record, List.mem_reverse.mp (List.mem_of_find?_eq_some hfind), rfl⟩

/-- The entity is that of an endpoint. -/
def IsEndpoint (localContext : List LocalContextRecord) (used : List RelationshipContextRow)
    (entity : EntityContextRow) : Prop :=
  ∃ relationship ∈ used, nodeOf localContext relationship.source = some entity ∨
    nodeOf localContext relationship.target = some entity

/-- The records have the endpoints of the relationships and these, once for each identifier. -/
structure RendersOnce (localContext : List LocalContextRecord) (used : List RelationshipContextRow)
    (rendered : RenderRecords) : Prop where
  entities : ∀ entity ∈ rendered.entities, IsEndpoint localContext used entity
  endpoints : ∀ entity, IsEndpoint localContext used entity →
    ∃ kept ∈ rendered.entities, kept.humanReadableId = entity.humanReadableId
  exact : (∀ record ∈ localContext, ∀ record' ∈ localContext,
      record.entity.humanReadableId = record'.entity.humanReadableId →
        record.entity = record'.entity) →
    ∀ entity, entity ∈ rendered.entities ↔ IsEndpoint localContext used entity
  relationships : rendered.relationships.Sublist used
  ids : ∀ relationship ∈ used,
    ∃ kept ∈ rendered.relationships, kept.humanReadableId = relationship.humanReadableId
  entitiesOnce : (rendered.entities.map (·.humanReadableId)).Nodup
  relationshipsOnce : (rendered.relationships.map (·.humanReadableId)).Nodup

theorem renderedOf_rendersOnce (used : List RelationshipContextRow) :
    RendersOnce localContext used (renderedOf (entitiesByTitleOf localContext) used) := by
  have hmem : ∀ entity, entity ∈ endpointsOf (entitiesByTitleOf localContext) used ↔
      IsEndpoint localContext used entity := by
    intro entity
    simp only [mem_endpointsOf, getElem?_entitiesByTitleOf, IsEndpoint]
  have hentities : ∀ entity ∈ (renderedOf (entitiesByTitleOf localContext) used).entities,
      IsEndpoint localContext used entity := by
    intro entity hentity
    exact (hmem entity).mp ((firstOfKeys_sublist _ _).subset hentity)
  have hendpoints : ∀ entity, IsEndpoint localContext used entity →
      ∃ kept ∈ (renderedOf (entitiesByTitleOf localContext) used).entities,
        kept.humanReadableId = entity.humanReadableId := by
    intro entity hentity
    exact List.mem_map.mp (mem_keys_firstOfKeys.mpr
      (List.mem_map_of_mem ((hmem entity).mpr hentity)))
  refine ⟨hentities, hendpoints, ?_, firstOfKeys_sublist _ _, ?_, nodup_keys_firstOfKeys _ _,
    nodup_keys_firstOfKeys _ _⟩
  · intro hdistinct entity
    refine ⟨hentities entity, fun hentity => ?_⟩
    obtain ⟨kept, hkept, hid⟩ := hendpoints entity hentity
    -- both are entities of the context
    have hrecord : ∀ entity, IsEndpoint localContext used entity →
        ∃ record ∈ localContext, record.entity = entity := by
      rintro entity ⟨relationship, -, hsource | htarget⟩
      · exact nodeOf_mem hsource
      · exact nodeOf_mem htarget
    obtain ⟨record, hin, rfl⟩ := hrecord entity hentity
    obtain ⟨record', hin', rfl⟩ := hrecord kept (hentities kept hkept)
    rw [hdistinct record hin record' hin' hid.symm]
    exact hkept
  · intro relationship hrelationship
    exact List.mem_map.mp (mem_keys_firstOfKeys.mpr (List.mem_map_of_mem hrelationship))

/-- The relationships that a context uses: the longest prefix that is affordable, and the first one
in any case. -/
def usedRelationships (localContext : List LocalContextRecord) (count : ℕ) :
    List RelationshipContextRow :=
  (sortedRelationships localContext).take (max 1 count)

/-- The context is the text of the longest affordable prefix. -/
structure AffordableContext (tools : ContextTools) (maxInputLength : ℕ)
    (localContext : List LocalContextRecord) (count : ℕ) (context : String) : Prop where
  longest : LongestPrefix (fun i => Affordable tools maxInputLength (entitiesByTitleOf localContext)
    ((sortedRelationships localContext).take i)) (sortedRelationships localContext).length count
  text : renderContext tools (renderedOf (entitiesByTitleOf localContext)
    (usedRelationships localContext count)) = .ok context
  once : RendersOnce localContext (usedRelationships localContext count)
    (renderedOf (entitiesByTitleOf localContext) (usedRelationships localContext count))

theorem sortContext_longest {context : String}
    (h : sortContext tools maxInputLength localContext = .ok context) :
    ∃ count, AffordableContext tools maxInputLength localContext count context := by
  obtain ⟨⟨text, rendered⟩, hloop, h⟩ := bind_eq_ok.mp h
  have hempty : ContextState.empty.Holds (endpointsOf (entitiesByTitleOf localContext) []) [] :=
    ContextState.empty_holds
  obtain ⟨count, hlongest, hzero, hpos⟩ := sortLoop_longest hempty hloop
  simp only [List.nil_append] at hlongest hzero hpos
  refine ⟨count, hlongest, ?_, renderedOf_rendersOnce _⟩
  unfold usedRelationships
  rcases Nat.eq_zero_or_pos count with rfl | hcount
  · -- no relationship fits, or there is none
    obtain ⟨rfl, rfl⟩ := hzero rfl
    exact h
  · have hne : (renderedOf (entitiesByTitleOf localContext)
        ((sortedRelationships localContext).take count)).relationships ≠ [] := by
      intro hnil
      have hlength := hlongest.le
      obtain ⟨first, hfirst⟩ := List.exists_mem_of_length_pos
        (l := (sortedRelationships localContext).take count) (by rw [List.length_take]; omega)
      obtain ⟨kept, hkept, -⟩ := (@renderedOf_rendersOnce localContext _).ids first hfirst
      rw [hnil] at hkept
      exact absurd hkept List.not_mem_nil
    dsimp only at h
    rw [if_neg (renderContext_ne_empty hne (hpos hcount))] at h
    cases h
    rw [max_eq_right hcount]
    exact hpos hcount

theorem sortedRelationships_pairwise (localContext : List LocalContextRecord) :
    (sortedRelationships localContext).Pairwise fun left right =>
      right.combinedDegree < left.combinedDegree ∨ right.combinedDegree = left.combinedDegree ∧
        left.humanReadableId ≤ right.humanReadableId := by
  refine sortBy_pairwise.imp fun {left right} h => ?_
  unfold compareRelationships at h
  rw [Ordering.isLE_then_iff_or, compare_lt_iff_lt, Std.compare_eq_iff_eq, isLE_compare] at h
  exact h

/-- The ordered relationships are those of the records, and a context is the text of their longest
affordable prefix, or of the first of them. -/
theorem sortContext_affordable (tools : ContextTools) (maxInputLength : ℕ)
    (localContext : List LocalContextRecord) :
    (sortedRelationships localContext).Perm (localContext.flatMap (·.relationships)) ∧
    (sortedRelationships localContext).Pairwise (fun left right =>
      right.combinedDegree < left.combinedDegree ∨ right.combinedDegree = left.combinedDegree ∧
        left.humanReadableId ≤ right.humanReadableId) ∧
    ∀ context, sortContext tools maxInputLength localContext = .ok context →
      ∃ count, AffordableContext tools maxInputLength localContext count context :=
  ⟨sortBy_perm, sortedRelationships_pairwise localContext, fun _ h => sortContext_longest h⟩

/-- A writer that quotes nothing, and a tokenizer that counts characters. -/
def plainTools : ContextTools where
  writeCsv rows := .ok (String.join (rows.map fun row => ",".intercalate row ++ "\n"))
  count text := .ok text.length

def hires : RelationshipContextRow := ⟨"r1", 7, "ALICE", "BOB", "hires", 4⟩

def pays : RelationshipContextRow := ⟨"r2", 8, "ALICE", "CAROL", "pays", 5⟩

def helps : RelationshipContextRow := ⟨"r3", 9, "BOB", "DAVE", "helps", 4⟩

/-- Three relationships, of which two fit. -/
def cafeContext : List LocalContextRecord :=
  [⟨"ALICE", ⟨"e1", 1, "ALICE", "runs the cafe", 3⟩, [hires, pays]⟩,
    ⟨"BOB", ⟨"e2", 2, "BOB", "bakes", 2⟩, [helps]⟩]

def cafeText : String :=
  "-----Entities-----\nhuman_readable_id,title,description,degree\n1,ALICE,runs the cafe,3\n" ++
    "2,BOB,bakes,2\n\n\n-----Relationships-----\n" ++
      "human_readable_id,source,target,description,combined_degree\n8,ALICE,CAROL,pays,5\n" ++
        "7,ALICE,BOB,hires,4\n"

theorem sortedRelationships_cafe : sortedRelationships cafeContext = [pays, hires, helps] := by
  have hperm : (cafeContext.flatMap (·.relationships)).Perm [pays, hires, helps] := by decide
  have hties : NoTies compareRelationships (cafeContext.flatMap (·.relationships)) := by
    unfold NoTies
    decide
  rw [sortedRelationships, sortBy_eq_of_perm hperm hties]
  exact List.mergeSort_of_pairwise (by decide)

theorem sortContext_affordable_cafe :
    ∃ count, AffordableContext plainTools 230 cafeContext count cafeText := by
  refine (sortContext_affordable plainTools 230 cafeContext).2.2 cafeText ?_
  rw [sortContext, sortedRelationships_cafe]
  decide +kernel

/-- One entity, with a relationship to an entity of another community. -/
def loneContext : List LocalContextRecord :=
  [⟨"ALICE", ⟨"e1", 1, "ALICE", "runs the cafe", 1⟩, [⟨"r1", 7, "ALICE", "BOB", "hires", 2⟩]⟩]

def loneText : String :=
  "-----Entities-----\nhuman_readable_id,title,description,degree\n1,ALICE,runs the cafe,1\n" ++
    "\n\n-----Relationships-----\n" ++
      "human_readable_id,source,target,description,combined_degree\n7,ALICE,BOB,hires,2\n"

theorem sortContext_lone : sortContext plainTools 1000 loneContext = .ok loneText := by
  decide +kernel

/-- An endpoint that the community does not have is not among the entities. -/
theorem sortContext_missing_endpoint :
    ¬ ∀ count context, sortContext plainTools 1000 loneContext = .ok context →
      AffordableContext plainTools 1000 loneContext count context →
        ∀ relationship ∈ usedRelationships loneContext count,
          ∀ title ∈ [relationship.source, relationship.target],
            ∃ entity ∈ (renderedOf (entitiesByTitleOf loneContext)
              (usedRelationships loneContext count)).entities, entity.title = title := by
  intro hall
  obtain ⟨count, hcontext⟩ := sortContext_longest sortContext_lone
  have hsorted : sortedRelationships loneContext = [⟨"r1", 7, "ALICE", "BOB", "hires", 2⟩] :=
    sortBy_eq_self le_rfl
  have hused : usedRelationships loneContext count = [⟨"r1", 7, "ALICE", "BOB", "hires", 2⟩] := by
    unfold usedRelationships
    rw [hsorted]
    exact List.take_of_length_le (le_max_left 1 count)
  have hbob := hall count loneText sortContext_lone hcontext
  rw [hused] at hbob
  obtain ⟨entity, hentity, htitle⟩ := hbob _ (List.mem_singleton_self _) "BOB" (by decide)
  have hentities : (renderedOf (entitiesByTitleOf loneContext)
      [⟨"r1", 7, "ALICE", "BOB", "hires", 2⟩]).entities.map (·.title) = ["ALICE"] := by
    decide +kernel
  have htitles := List.mem_map_of_mem (f := EntityContextRow.title) hentity
  rw [hentities, htitle] at htitles
  exact absurd htitles (by decide)

end Context

end GraphLoom.Communities
