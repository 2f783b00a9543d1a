import GraphLoom.Foundation.Comparators

/-!
# The graph explorer

What the explorer knows of a graph: its entities, relationships, communities and their reports.  A
snapshot is valid when the identifiers of each kind differ.

A request for a list filters and sorts the rows of the snapshot and answers with the page behind its
cursor, which is the identifier of the last row of the page before.
-/

namespace GraphLoom.Studio

open Foundation

structure GraphEntityDetail where
  id : String
  shortId : Option String
  title : String
  entityType : Option String
  degree : Option ℤ
  rank : Option ℤ
  communityIds : List String
deriving DecidableEq, Repr

structure GraphRelationshipDetail where
  id : String
  shortId : Option String
  source : String
  target : String
  weight : Option F64
  rank : Option ℤ
deriving DecidableEq, Repr

structure GraphCommunityReportDetail where
  id : String
  shortId : String
  communityId : String
  title : String
  summary : String
  rank : Option F64
deriving DecidableEq, Repr

structure GraphCommunityReportSummary where
  id : String
  shortId : String
  communityId : String
  title : String
  summary : String
  rank : Option F64
deriving DecidableEq, Repr

structure GraphCommunity where
  id : String
  shortId : String
  title : String
  level : ℤ
  parent : ℤ
  children : List ℤ
  report : Option GraphCommunityReportSummary
deriving DecidableEq, Repr

structure GraphDataSnapshot where
  entities : List GraphEntityDetail
  relationships : List GraphRelationshipDetail
  communities : List GraphCommunity
  communityReports : List GraphCommunityReportDetail
deriving DecidableEq, Repr

/-- The loop of `unique`, with the values that have been seen. -/
def uniqueFrom (seen : List String) : List String → Bool
  | [] => true
  | value :: values => if value ∈ seen then false else uniqueFrom (value :: seen) values

def unique (values : List String) : Bool := uniqueFrom [] values

namespace GraphDataSnapshot

variable (snapshot : GraphDataSnapshot)

def validate : Bool :=
  unique (snapshot.entities.map (·.id)) &&
    unique (snapshot.relationships.map (·.id)) &&
    unique (snapshot.communities.map (·.id)) &&
    unique (snapshot.communities.map (·.shortId)) &&
    unique (snapshot.communityReports.map (·.id)) &&
    unique (snapshot.communityReports.map (·.communityId))

end GraphDataSnapshot

theorem uniqueFrom_iff (seen values : List String) :
    uniqueFrom seen values ↔ values.Nodup ∧ ∀ value ∈ values, value ∉ seen := by
  induction values generalizing seen with
  | nil => simp [uniqueFrom]
  | cons value values ih =>
    unfold uniqueFrom
    by_cases hseen : value ∈ seen
    · simp [hseen]
    · rw [if_neg hseen, ih, List.nodup_cons]
      simp only [List.mem_cons, not_or, forall_eq_or_imp]
      constructor
      · rintro ⟨hnodup, hall⟩
        exact ⟨⟨fun hmem => (hall value hmem).1 rfl, hnodup⟩, hseen, fun other hother =>
          (hall other hother).2⟩
      · rintro ⟨⟨hmem, hnodup⟩, -, hall⟩
        refine ⟨hnodup, fun other hother => ⟨?_, hall other hother⟩⟩
        rintro rfl
        exact hmem hother

theorem unique_iff {values : List String} : unique values ↔ values.Nodup := by
  simp [unique, uniqueFrom_iff]

/-- The identifiers of each kind differ. -/
structure GraphDataSnapshot.Valid (snapshot : GraphDataSnapshot) : Prop where
  entities : (snapshot.entities.map (·.id)).Nodup
  relationships : (snapshot.relationships.map (·.id)).Nodup
  communities : (snapshot.communities.map (·.id)).Nodup
  shortIds : (snapshot.communities.map (·.shortId)).Nodup
  reports : (snapshot.communityReports.map (·.id)).Nodup
  reportCommunities : (snapshot.communityReports.map (·.communityId)).Nodup

theorem GraphDataSnapshot.validate_iff {snapshot : GraphDataSnapshot} :
    snapshot.validate ↔ snapshot.Valid := by
  unfold GraphDataSnapshot.validate
  simp only [Bool.and_eq_true, unique_iff, and_assoc]
  constructor
  · rintro ⟨hentities, hrelationships, hcommunities, hshort, hreports, hcommunity⟩
    exact ⟨hentities, hrelationships, hcommunities, hshort, hreports, hcommunity⟩
  · intro h
    exact ⟨h.entities, h.relationships, h.communities, h.shortIds, h.reports, h.reportCommunities⟩

/-- The same rows in another order. -/
structure GraphDataSnapshot.SameRows (snapshot snapshot' : GraphDataSnapshot) : Prop where
  entities : snapshot.entities.Perm snapshot'.entities
  relationships : snapshot.relationships.Perm snapshot'.relationships
  communities : snapshot.communities.Perm snapshot'.communities
  communityReports : snapshot.communityReports.Perm snapshot'.communityReports

theorem GraphDataSnapshot.SameRows.valid_iff {snapshot snapshot' : GraphDataSnapshot}
    (h : snapshot.SameRows snapshot') : snapshot.Valid ↔ snapshot'.Valid := by
  have hforward : ∀ {snapshot snapshot' : GraphDataSnapshot}, snapshot.SameRows snapshot' →
      snapshot.Valid → snapshot'.Valid := by
    intro snapshot snapshot' h hvalid
    constructor
    · exact (h.entities.map _).nodup_iff.mp hvalid.entities
    · exact (h.relationships.map _).nodup_iff.mp hvalid.relationships
    · exact (h.communities.map _).nodup_iff.mp hvalid.communities
    · exact (h.communities.map _).nodup_iff.mp hvalid.shortIds
    · exact (h.communityReports.map _).nodup_iff.mp hvalid.reports
    · exact (h.communityReports.map _).nodup_iff.mp hvalid.reportCommunities
  refine ⟨hforward h, hforward ⟨h.entities.symm, h.relationships.symm, h.communities.symm,
    h.communityReports.symm⟩⟩

/-! ## Lists of the graph explorer -/

def defaultPageLimit : ℕ := 50

def maxPageLimit : ℕ := 200

def maxIdBytes : ℕ := 256

def maxFilterBytes : ℕ := 1024

inductive StatusCode where
  | badRequest
  | serviceUnavailable
deriving DecidableEq, Repr

inductive Response (α : Type) where
  | json (body : α)
  | fixedError (status : StatusCode) (body : String)
deriving DecidableEq, Repr

def invalidGraphRequestBody : String := "invalid graph request"

def graphUnavailableBody : String := "graph data is unavailable"

/-! ### Items -/

structure GraphEntity where
  id : String
  shortId : Option String
  title : String
  entityType : Option String
  degree : Option ℤ
  rank : Option ℤ
  communityIds : List String
deriving DecidableEq, Repr

structure GraphRelationship where
  id : String
  shortId : Option String
  source : String
  target : String
  weight : Option F64
  rank : Option ℤ
deriving DecidableEq, Repr

def GraphEntity.ofDetail (entity : GraphEntityDetail) : GraphEntity where
  id := entity.id
  shortId := entity.shortId
  title := entity.title
  entityType := entity.entityType
  degree := entity.degree
  rank := entity.rank
  communityIds := entity.communityIds

def GraphRelationship.ofDetail (relationship : GraphRelationshipDetail) : GraphRelationship where
  id := relationship.id
  shortId := relationship.shortId
  source := relationship.source
  target := relationship.target
  weight := relationship.weight
  rank := relationship.rank

def GraphCommunityReportSummary.ofDetail (report : GraphCommunityReportDetail) :
    GraphCommunityReportSummary where
  id := report.id
  shortId := report.shortId
  communityId := report.communityId
  title := report.title
  summary := report.summary
  rank := report.rank

def GraphCommunity.withReport (community : GraphCommunity)
    (report : Option GraphCommunityReportDetail) : GraphCommunity :=
  { community with report := report.map .ofDetail }

/-! ### Sorting -/

inductive EntitySort where
  | id
  | degree
  | rank
  | title
deriving DecidableEq, Repr

inductive RelationshipSort where
  | id
  | weight
  | rank
  | source
  | target
deriving DecidableEq, Repr

inductive SortOrder where
  | asc
  | desc
deriving DecidableEq, Repr

def ordered (value : Ordering) : SortOrder → Ordering
  | .asc => value
  | .desc => value.swap

/-- `compare_optional`, and `compare_optional_f64` with the total order of floats. -/
def compareOptional {κ : Type} (cmp : κ → κ → Ordering) (left right : Option κ) (order : SortOrder) :
    Ordering :=
  match left, right with
  | some left, some right => ordered (cmp left right) order
  | some _, none => .lt
  | none, some _ => .gt
  | none, none => .eq

def primaryEntities (sort : EntitySort) (order : SortOrder) (left right : GraphEntity) : Ordering :=
  match sort with
  | .id => ordered (compare left.id right.id) order
  | .degree => compareOptional compare left.degree right.degree order
  | .rank => compareOptional compare left.rank right.rank order
  | .title => ordered (compare left.title right.title) order

def compareEntities (sort : EntitySort) (order : SortOrder) (left right : GraphEntity) : Ordering :=
  (primaryEntities sort order left right).then (compare left.id right.id)

def sortEntities (items : List GraphEntity) (sort : EntitySort) (order : SortOrder) :
    List GraphEntity :=
  sortBy (compareEntities sort order) items

def primaryRelationships (sort : RelationshipSort) (order : SortOrder)
    (left right : GraphRelationship) : Ordering :=
  match sort with
  | .id => ordered (compare left.id right.id) order
  | .weight => compareOptional F64.totalCmp left.weight right.weight order
  | .rank => compareOptional compare left.rank right.rank order
  | .source => ordered (compare left.source right.source) order
  | .target => ordered (compare left.target right.target) order

def compareRelationships (sort : RelationshipSort) (order : SortOrder)
    (left right : GraphRelationship) : Ordering :=
  (primaryRelationships sort order left right).then (compare left.id right.id)

def sortRelationships (items : List GraphRelationship) (sort : RelationshipSort)
    (order : SortOrder) : List GraphRelationship :=
  sortBy (compareRelationships sort order) items

/-! ### Pages -/

structure GraphListResponse (α : Type) where
  items : List α
  nextCursor : Option String
deriving DecidableEq, Repr

/-- The letters, digits and marks of an identifier.  They are bytes of their own. -/
def isIdChar (c : Char) : Bool := c.isAlphanum || c == '-' || c == '_' || c == '.' || c == ':'

def validId (value : String) : Bool :=
  value ≠ "" && decide (value.utf8ByteSize ≤ maxIdBytes) && value.toList.all isIdChar

def validatedPage (limit : Option ℕ) (after : Option String) (filters : List (Option String)) :
    Option ℕ :=
  let limit := limit.getD defaultPageLimit
  if ¬ (1 ≤ limit ∧ limit ≤ maxPageLimit) ∨ after.any (fun value => !validId value) ∨
      (filters.filterMap id).any
        (fun value => value = "" || decide (maxFilterBytes < value.utf8ByteSize)) then
    none
  else some limit

def paginate {α : Type} (items : List α) (after : Option String) (limit : ℕ) (id : α → String) :
    GraphListResponse α :=
  let start := match after with
    | none => 0
    | some cursor =>
      match items.findIdx? fun item => id item = cursor with
      | some index => index + 1
      | none => items.length
  let page := (items.drop start).take (limit + 1)
  let hasMore := limit < page.length
  let page := page.take limit
  ⟨page, if hasMore then page.getLast?.map id else none⟩

/-! ### Requests -/

structure EntityListQuery where
  entityType : Option String
  community : Option String
  limit : Option ℕ
  after : Option String
  sort : EntitySort
  order : SortOrder
deriving DecidableEq, Repr

structure RelationshipListQuery where
  source : Option String
  target : Option String
  limit : Option ℕ
  after : Option String
  sort : RelationshipSort
  order : SortOrder
deriving DecidableEq, Repr

structure CommunityListQuery where
  level : Option ℤ
  parent : Option ℤ
  limit : Option ℕ
  after : Option String
deriving DecidableEq, Repr

/-- `load_snapshot`, with the answer of the data source. -/
def loadSnapshot (source : Option GraphDataSnapshot) : Option GraphDataSnapshot :=
  source.filter fun snapshot => snapshot.validate

/-- `Option::is_none_or`. -/
def isNoneOr {α : Type} (o : Option α) (p : α → Bool) : Bool :=
  match o with
  | none => true
  | some a => p a

def entityItems (snapshot : GraphDataSnapshot) (query : EntityListQuery) : List GraphEntity :=
  let kept := snapshot.entities.filter fun entity =>
    isNoneOr query.entityType (fun value => entity.entityType = some value) &&
      isNoneOr query.community fun value => entity.communityIds.contains value
  sortEntities (kept.map .ofDetail) query.sort query.order

def listEntities (source : Option GraphDataSnapshot) (query : EntityListQuery) :
    Response (GraphListResponse GraphEntity) :=
  match validatedPage query.limit query.after [query.entityType, query.community] with
  | none => .fixedError .badRequest invalidGraphRequestBody
  | some limit =>
    match loadSnapshot source with
    | none => .fixedError .serviceUnavailable graphUnavailableBody
    | some snapshot => .json (paginate (entityItems snapshot query) query.after limit (·.id))

def relationshipItems (snapshot : GraphDataSnapshot) (query : RelationshipListQuery) :
    List GraphRelationship :=
  let kept := snapshot.relationships.filter fun relationship =>
    isNoneOr query.source (fun value => relationship.source = value) &&
      isNoneOr query.target fun value => relationship.target = value
  sortRelationships (kept.map .ofDetail) query.sort query.order

def listRelationships (source : Option GraphDataSnapshot) (query : RelationshipListQuery) :
    Response (GraphListResponse GraphRelationship) :=
  match validatedPage query.limit query.after [query.source, query.target] with
  | none => .fixedError .badRequest invalidGraphRequestBody
  | some limit =>
    match loadSnapshot source with
    | none => .fixedError .serviceUnavailable graphUnavailableBody
    | some snapshot => .json (paginate (relationshipItems snapshot query) query.after limit (·.id))

def communityItems (snapshot : GraphDataSnapshot) (query : CommunityListQuery) :
    List GraphCommunity :=
  let kept := snapshot.communities.filter fun community =>
    isNoneOr query.level (fun value => community.level = value) &&
      isNoneOr query.parent fun value => community.parent = value
  let items := kept.map fun community =>
    community.withReport
      (snapshot.communityReports.find? fun report => report.communityId = community.shortId)
  sortBy (fun left right => compare left.id right.id) items

def listCommunities (source : Option GraphDataSnapshot) (query : CommunityListQuery) :
    Response (GraphListResponse GraphCommunity) :=
  match validatedPage query.limit query.after [] with
  | none => .fixedError .badRequest invalidGraphRequestBody
  | some limit =>
    match loadSnapshot source with
    | none => .fixedError .serviceUnavailable graphUnavailableBody
    | some snapshot => .json (paginate (communityItems snapshot query) query.after limit (·.id))

end GraphLoom.Studio
