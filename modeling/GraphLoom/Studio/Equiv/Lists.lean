import GraphLoom.Foundation.Table
import GraphLoom.Studio.Graph

/-!
# Lists are paged completely

`Followed fetch after pages` says that a client which starts from the cursor `after` and goes on
until an answer has no cursor gets these pages.  Of a list whose identifiers differ it gets every
item once (`followed_pages`), and there is only one way to follow the cursors (`Followed.unique`).

`Precedes order key id` is the order of a list: by the key, in the given direction with the missing
keys last, and by ascending identifier where the keys are equal.  A client that follows the cursors
of a list sees the rows that match its request, each of them once and in this order, whatever the
order of the rows in the snapshot is (`listEntities_complete`, `listRelationships_complete`,
`listCommunities_complete`).
-/

namespace GraphLoom.Studio

section Cursors

open Foundation

variable {α : Type} {fetch : Option String → Response (GraphListResponse α)}
  {items front rest : List α} {id : α → String} {limit : ℕ}

/-- The pages that a client gets from a cursor on, until an answer has no cursor. -/
inductive Followed (fetch : Option String → Response (GraphListResponse α)) :
    Option String → List (List α) → Prop
  | last {after : Option String} {page : List α} :
      fetch after = .json ⟨page, none⟩ → Followed fetch after [page]
  | next {after : Option String} {page : List α} {cursor : String} {pages : List (List α)} :
      fetch after = .json ⟨page, some cursor⟩ → Followed fetch (some cursor) pages →
        Followed fetch after (page :: pages)

theorem Followed.unique {after : Option String} {pages pages' : List (List α)}
    (h : Followed fetch after pages) (h' : Followed fetch after pages') : pages = pages' := by
  induction h generalizing pages' with
  | last hlast =>
    cases h' with
    | last hlast' =>
      rw [hlast] at hlast'
      injection hlast' with hpage
      injection hpage with hpage
      rw [hpage]
    | next hnext' =>
      rw [hlast] at hnext'
      injection hnext' with hpage
      injection hpage with _ hcursor
      cases hcursor
  | next hnext _ ih =>
    cases h' with
    | last hlast' =>
      rw [hnext] at hlast'
      injection hlast' with hpage
      injection hpage with _ hcursor
      cases hcursor
    | next hnext' hrest' =>
      rw [hnext] at hnext'
      injection hnext' with hpage
      injection hpage with hpage hcursor
      obtain rfl := Option.some.inj hcursor
      rw [hpage, ih hrest']

/-- The cursor behind the items that have been shown. -/
def cursorBehind (id : α → String) (front : List α) : Option String := front.getLast?.map id

/-- The cursor of a page leads to the items after it. -/
theorem findIdx?_cursor {last : α} (hnodup : ((front ++ [last] ++ rest).map id).Nodup) :
    (front ++ [last] ++ rest).findIdx? (fun item => id item = id last) = some front.length := by
  have hfront : front.findIdx? (fun item => decide (id item = id last)) = none := by
    rw [List.findIdx?_eq_none_iff]
    intro item hitem
    rw [List.append_assoc, List.map_append, List.nodup_append] at hnodup
    have hne := hnodup.2.2 (id item) (List.mem_map_of_mem hitem) (id last) (by simp)
    simpa using hne
  rw [List.append_assoc, List.findIdx?_append, hfront]
  simp [List.findIdx?_cons]

theorem paginate_cursorBehind (hnodup : ((front ++ rest).map id).Nodup) :
    paginate (front ++ rest) (cursorBehind id front) limit id =
      ⟨rest.take limit,
        if limit < rest.length then (rest.take limit).getLast?.map id else none⟩ := by
  have hpage : ∀ start, start = front.length →
      (⟨(((front ++ rest).drop start).take (limit + 1)).take limit,
        if limit < (((front ++ rest).drop start).take (limit + 1)).length then
          ((((front ++ rest).drop start).take (limit + 1)).take limit).getLast?.map id
        else none⟩ : GraphListResponse α) =
      ⟨rest.take limit,
        if limit < rest.length then (rest.take limit).getLast?.map id else none⟩ := by
    rintro start rfl
    -- the look-ahead tells whether there are more than the page shows
    have hmore : limit < min (limit + 1) rest.length ↔ limit < rest.length := by omega
    rw [List.drop_left, List.take_take, Nat.min_eq_left (Nat.le_succ limit), List.length_take]
    simp only [hmore]
  rcases List.eq_nil_or_concat front with rfl | ⟨shown, last, rfl⟩
  · exact hpage 0 rfl
  · rw [List.concat_eq_append] at hnodup hpage ⊢
    have hcursor : cursorBehind id (shown ++ [last]) = some (id last) := by
      simp [cursorBehind]
    unfold paginate
    rw [hcursor]
    dsimp only
    rw [findIdx?_cursor hnodup]
    exact hpage _ (by simp)

/-- **Every item comes once**: the pages from a cursor on are the items behind it, and each page
but the last is full. -/
theorem followed_pages (hlimit : 1 ≤ limit) (hnodup : (items.map id).Nodup)
    (hfetch : ∀ front, front <+: items →
      fetch (cursorBehind id front) = .json (paginate items (cursorBehind id front) limit id))
    (hitems : front ++ rest = items) :
    ∃ pages, Followed fetch (cursorBehind id front) pages ∧ pages.flatten = rest ∧
      (∀ page ∈ pages.dropLast, page.length = limit) ∧ ∀ page ∈ pages, page.length ≤ limit := by
  -- the induction is on the number of items that are still to come
  induction hlength : rest.length using Nat.strong_induction_on generalizing front rest with
  | _ count ih =>
    have hanswer := hfetch front ⟨rest, hitems⟩
    subst hitems
    rw [paginate_cursorBehind hnodup] at hanswer
    by_cases hmore : limit < rest.length
    · have hshown : (rest.take limit).length = limit := by
        rw [List.length_take]
        omega
      have hcursor : (rest.take limit).getLast?.map id =
          cursorBehind id (front ++ rest.take limit) := by
        have hne : rest.take limit ≠ [] := by
          intro hnil
          rw [hnil, List.length_nil] at hshown
          omega
        unfold cursorBehind
        rw [List.getLast?_append_of_ne_nil _ hne]
      obtain ⟨cursor, hsome⟩ : ∃ cursor, (rest.take limit).getLast?.map id = some cursor := by
        cases hlast : (rest.take limit).getLast? with
        | none =>
          rw [List.getLast?_eq_none_iff] at hlast
          rw [hlast, List.length_nil] at hshown
          omega
        | some last => exact ⟨id last, rfl⟩
      obtain ⟨pages, hpages, hflatten, hfull, hbound⟩ :=
        ih (rest.drop limit).length (by rw [List.length_drop]; omega)
          (by rw [List.append_assoc, List.take_append_drop]) rfl
      rw [← hcursor, hsome] at hpages
      rw [if_pos hmore, hsome] at hanswer
      have hne : pages ≠ [] := by
        rintro rfl
        cases hpages
      refine ⟨rest.take limit :: pages, .next hanswer hpages, ?_, ?_, ?_⟩
      · rw [List.flatten_cons, hflatten, List.take_append_drop]
      · rw [List.dropLast_cons_of_ne_nil hne]
        intro page hpage
        rcases List.mem_cons.mp hpage with rfl | hpage
        · exact hshown
        · exact hfull page hpage
      · intro page hpage
        rcases List.mem_cons.mp hpage with rfl | hpage
        · omega
        · exact hbound page hpage
    · rw [if_neg hmore, List.take_of_length_le (by omega)] at hanswer
      refine ⟨[rest], .last hanswer, by simp, by simp, ?_⟩
      intro page hpage
      obtain rfl := List.mem_singleton.mp hpage
      omega

end Cursors

/-! ## Lists are paged completely -/

section Lists

open Foundation Std

variable {α κ : Type} {snapshot snapshot' : GraphDataSnapshot}

/-! ### The order of a list -/

/-- What a list is sorted by. -/
inductive SortKey where
  | text (value : String)
  | number (value : ℤ)
deriving DecidableEq, Repr

namespace SortKey

def cmp : SortKey → SortKey → Ordering
  | text left, text right => compare left right
  | text _, number _ => .lt
  | number _, text _ => .gt
  | number left, number right => compare left right

theorem cmp_eq_eq_iff {left right : SortKey} : left.cmp right = .eq ↔ left = right := by
  cases left with
  | text left =>
    cases right with
    | text right => simp only [cmp, LawfulEqCmp.compare_eq_iff_eq, text.injEq]
    | number right => simp [cmp]
  | number left =>
    cases right with
    | text right => simp [cmp]
    | number right => simp only [cmp, LawfulEqCmp.compare_eq_iff_eq, number.injEq]

instance : TransCmp cmp where
  eq_swap := by
    rintro (left | left) (right | right)
    · exact @OrientedCmp.eq_swap String compare _ left right
    · rfl
    · rfl
    · exact @OrientedCmp.eq_swap ℤ compare _ left right
  isLE_trans := by
    rintro (a | a) (b | b) (c | c) hab hbc
    · exact @TransCmp.isLE_trans String compare _ a b c hab hbc
    · rfl
    · cases hbc
    · rfl
    · cases hab
    · cases hab
    · cases hbc
    · exact @TransCmp.isLE_trans ℤ compare _ a b c hab hbc

end SortKey

/-- The order of the values that are there; those that are missing come last. -/
def MissingLast (order : SortOrder) (left right : Option SortKey) : Prop :=
  match left, right with
  | some left, some right =>
    match order with
    | .asc => left.cmp right = .lt
    | .desc => right.cmp left = .lt
  | some _, none => True
  | none, _ => False

/-- The order of a list. -/
def Precedes (order : SortOrder) (key : α → Option SortKey) (id : α → String) (left right : α) :
    Prop :=
  MissingLast order (key left) (key right) ∨ key left = key right ∧ id left < id right

/-- The comparator of a list. -/
def compareBy (order : SortOrder) (key : α → Option SortKey) (id : α → String) (left right : α) :
    Ordering :=
  (compareOptional SortKey.cmp (key left) (key right) order).then (compare (id left) (id right))

theorem ordered_eq_lt_iff {cmp : κ → κ → Ordering} [OrientedCmp cmp] {order : SortOrder}
    {left right : κ} : ordered (cmp left right) order = .lt ↔
      match order with
      | .asc => cmp left right = .lt
      | .desc => cmp right left = .lt := by
  cases order with
  | asc => rfl
  | desc =>
    have hswap : cmp right left = (cmp left right).swap := OrientedCmp.eq_swap
    simp only [ordered, hswap]

theorem transCmp_ordered (order : SortOrder) :
    TransCmp fun left right : SortKey => ordered (left.cmp right) order := by
  cases order with
  | asc => exact (inferInstance : TransCmp SortKey.cmp)
  | desc => exact transCmp_swap

theorem transCmp_compareOptional (order : SortOrder) :
    TransCmp fun left right => compareOptional SortKey.cmp left right order where
  eq_swap := by
    rintro (_ | left) (_ | right)
    · rfl
    · rfl
    · rfl
    · exact (transCmp_ordered order).eq_swap
  isLE_trans := by
    rintro (_ | a) (_ | b) (_ | c) hab hbc
    · rfl
    · cases hbc
    · cases hab
    · cases hab
    · rfl
    · cases hbc
    · rfl
    · exact (transCmp_ordered order).isLE_trans hab hbc

theorem compareOptional_eq_lt_iff {order : SortOrder} {left right : Option SortKey} :
    compareOptional SortKey.cmp left right order = .lt ↔ MissingLast order left right := by
  cases left with
  | none => cases right <;> simp [compareOptional, MissingLast]
  | some left =>
    cases right with
    | none => simp [compareOptional, MissingLast]
    | some right => exact ordered_eq_lt_iff

theorem compareOptional_eq_eq_iff {order : SortOrder} {left right : Option SortKey} :
    compareOptional SortKey.cmp left right order = .eq ↔ left = right := by
  cases left with
  | none => cases right <;> simp [compareOptional]
  | some left =>
    cases right with
    | none => simp [compareOptional]
    | some right =>
      rw [Option.some_inj, ← SortKey.cmp_eq_eq_iff]
      cases order with
      | asc => rfl
      | desc =>
        simp only [compareOptional, ordered]
        cases left.cmp right <;> decide

theorem compareBy_eq_lt_iff {order : SortOrder} {key : α → Option SortKey} {id : α → String}
    {left right : α} :
    compareBy order key id left right = .lt ↔ Precedes order key id left right := by
  have hids : compare (id left) (id right) = .lt ↔ id left < id right := compareOfLessAndEq_eq_lt
  unfold compareBy Precedes
  rw [Ordering.then_eq_lt, compareOptional_eq_lt_iff, compareOptional_eq_eq_iff, hids]

theorem eq_of_compareBy_eq {order : SortOrder} {key : α → Option SortKey} {id : α → String}
    {left right : α} (h : compareBy order key id left right = .eq) : id left = id right := by
  unfold compareBy at h
  rw [Ordering.then_eq_eq] at h
  exact LawfulEqCmp.eq_of_compare h.2

theorem transCmp_compareBy (order : SortOrder) (key : α → Option SortKey) (id : α → String) :
    TransCmp (compareBy order key id) := by
  have hkey : TransCmp fun left right : α =>
      compareOptional SortKey.cmp (key left) (key right) order :=
    @transCmp_on α _ _ (transCmp_compareOptional order) key
  have hid : TransCmp fun left right : α => compare (id left) (id right) := transCmp_on id
  exact (inferInstance : TransCmp (compareLex
    (fun left right : α => compareOptional SortKey.cmp (key left) (key right) order)
    fun left right => compare (id left) (id right)))

section Sorted

variable {order : SortOrder} {key : α → Option SortKey} {id : α → String} {items items' : List α}

theorem noTies_compareBy (hnodup : (items.map id).Nodup) :
    NoTies (compareBy order key id) items := fun _ ha _ hb h =>
  List.inj_on_of_nodup_map hnodup ha hb (eq_of_compareBy_eq h)

theorem sortBy_precedes (hnodup : (items.map id).Nodup) :
    (sortBy (compareBy order key id) items).Pairwise (Precedes order key id) := by
  have := transCmp_compareBy order key id
  have hties : NoTies (compareBy order key id) items := noTies_compareBy hnodup
  exact (sortBy_pairwise_lt hnodup.of_map hties).imp compareBy_eq_lt_iff.mp

theorem sortBy_compareBy_perm (hnodup : (items.map id).Nodup) (h : items.Perm items') :
    sortBy (compareBy order key id) items = sortBy (compareBy order key id) items' := by
  have := transCmp_compareBy order key id
  exact sortBy_eq_of_perm h (noTies_compareBy hnodup)

end Sorted

/-! ### The keys -/

def EntitySort.key (sort : EntitySort) (entity : GraphEntity) : Option SortKey :=
  match sort with
  | .id => some (.text entity.id)
  | .degree => entity.degree.map .number
  | .rank => entity.rank.map .number
  | .title => some (.text entity.title)

/-- Weights have the total order of floats. -/
def RelationshipSort.key (sort : RelationshipSort) (relationship : GraphRelationship) :
    Option SortKey :=
  match sort with
  | .id => some (.text relationship.id)
  | .weight => relationship.weight.map fun weight => .number weight.totalKey
  | .rank => relationship.rank.map .number
  | .source => some (.text relationship.source)
  | .target => some (.text relationship.target)

theorem compareOptional_map (cmp : κ → κ → Ordering) (f : κ → SortKey) {order : SortOrder}
    (h : ∀ a b, (f a).cmp (f b) = cmp a b) (left right : Option κ) :
    compareOptional SortKey.cmp (left.map f) (right.map f) order =
      compareOptional cmp left right order := by
  cases left with
  | none => cases right <;> rfl
  | some left =>
    cases right with
    | none => rfl
    | some right => simp only [Option.map_some, compareOptional, h]

theorem compareEntities_eq (sort : EntitySort) (order : SortOrder) :
    compareEntities sort order = compareBy order sort.key (·.id) := by
  funext left right
  unfold compareEntities compareBy
  congr 1
  cases sort with
  | id => rfl
  | degree => exact (compareOptional_map compare SortKey.number (fun _ _ => rfl) _ _).symm
  | rank => exact (compareOptional_map compare SortKey.number (fun _ _ => rfl) _ _).symm
  | title => rfl

theorem compareRelationships_eq (sort : RelationshipSort) (order : SortOrder) :
    compareRelationships sort order = compareBy order sort.key (·.id) := by
  funext left right
  unfold compareRelationships compareBy
  congr 1
  cases sort with
  | id => rfl
  | weight =>
    exact (compareOptional_map F64.totalCmp (fun weight => .number weight.totalKey) (fun _ _ => rfl)
      _ _).symm
  | rank => exact (compareOptional_map compare SortKey.number (fun _ _ => rfl) _ _).symm
  | source => rfl
  | target => rfl

/-- Communities are sorted by their identifier alone. -/
def communityKey (_ : GraphCommunity) : Option SortKey := none

theorem compareCommunities_eq :
    (fun left right : GraphCommunity => compare left.id right.id) =
      compareBy .asc communityKey (·.id) := by
  funext left right
  rfl

/-! ### Following the cursors of a list -/

/-- The cursors of a list lead to every matching item once and in order, and each page but the last
is full. -/
structure PagedCompletely (fetch : Option String → Response (GraphListResponse α)) (limit : ℕ)
    (order : SortOrder) (key : α → Option SortKey) (id : α → String) (matching : α → Prop)
    (pages : List (List α)) : Prop where
  followed : Followed fetch none pages
  only : ∀ pages', Followed fetch none pages' → pages' = pages
  mem_iff : ∀ item, item ∈ pages.flatten ↔ matching item
  once : (pages.flatten.map id).Nodup
  sorted : pages.flatten.Pairwise (Precedes order key id)
  full : ∀ page ∈ pages.dropLast, page.length = limit
  bounded : ∀ page ∈ pages, page.length ≤ limit

theorem validatedPage_some {limit : Option ℕ} {filters : List (Option String)} {accepted : ℕ}
    (h : validatedPage limit none filters = some accepted) :
    1 ≤ accepted ∧ ∀ after : Option String, (∀ value ∈ after, validId value) →
      validatedPage limit after filters = some accepted := by
  unfold validatedPage at h ⊢
  dsimp only at h ⊢
  split_ifs at h with hrejected
  obtain rfl := Option.some.inj h
  simp only [not_or, not_not, Bool.not_eq_true] at hrejected
  obtain ⟨hrange, -, hfilters⟩ := hrejected
  refine ⟨hrange.1, fun after hafter => ?_⟩
  rw [if_neg]
  simp only [not_or, not_not, Bool.not_eq_true]
  refine ⟨hrange, ?_, hfilters⟩
  cases after with
  | none => rfl
  | some value => simp [hafter value rfl]

theorem pagedCompletely_of_fetch {fetch : Option String → Response (GraphListResponse α)}
    {limit : ℕ} {order : SortOrder} {key : α → Option SortKey} {id : α → String} {items : List α}
    (hlimit : 1 ≤ limit) (hnodup : (items.map id).Nodup) (hids : ∀ item ∈ items, validId (id item))
    (hfetch : ∀ after : Option String, (∀ value ∈ after, validId value) →
      fetch after = .json (paginate (sortBy (compareBy order key id) items) after limit id)) :
    ∃ pages, PagedCompletely fetch limit order key id (· ∈ items) pages := by
  have hsorted : ((sortBy (compareBy order key id) items).map id).Nodup :=
    (sortBy_perm.map id).nodup_iff.mpr hnodup
  -- every cursor is the identifier of an item
  have hcursors : ∀ front, front <+: sortBy (compareBy order key id) items →
      fetch (cursorBehind id front) = .json
        (paginate (sortBy (compareBy order key id) items) (cursorBehind id front) limit id) := by
    intro front hfront
    apply hfetch
    intro value hvalue
    obtain ⟨last, hlast, rfl⟩ := Option.map_eq_some_iff.mp hvalue
    exact hids last (mem_sortBy.mp (hfront.subset (List.mem_of_getLast? hlast)))
  obtain ⟨pages, hpages, hflatten, hfull, hbounded⟩ :=
    followed_pages hlimit hsorted hcursors (List.nil_append _)
  refine ⟨pages, hpages, fun pages' h => h.unique hpages, ?_, ?_, ?_, hfull, hbounded⟩
  · intro item
    rw [hflatten, mem_sortBy]
  · rwa [hflatten]
  · rw [hflatten]
    exact sortBy_precedes hnodup

theorem loadSnapshot_some (hvalid : snapshot.Valid) :
    loadSnapshot (some snapshot) = some snapshot := by
  simp [loadSnapshot, GraphDataSnapshot.validate_iff.mpr hvalid]

theorem isNoneOr_iff {o : Option κ} {p : κ → Bool} : isNoneOr o p ↔ ∀ value ∈ o, p value := by
  cases o <;> simp [isNoneOr]

/-! ### Entities -/

/-- The entities that a request asks for. -/
def EntityListQuery.Matches (query : EntityListQuery) (entity : GraphEntityDetail) : Prop :=
  (∀ value, query.entityType = some value → entity.entityType = some value) ∧
    ∀ value, query.community = some value → value ∈ entity.communityIds

/-- The items before they are sorted. -/
def matchingEntities (snapshot : GraphDataSnapshot) (query : EntityListQuery) : List GraphEntity :=
  (snapshot.entities.filter fun entity =>
    isNoneOr query.entityType (fun value => entity.entityType = some value) &&
      isNoneOr query.community fun value => entity.communityIds.contains value).map .ofDetail

theorem entityItems_eq (query : EntityListQuery) :
    entityItems snapshot query =
      sortBy (compareBy query.order query.sort.key (·.id)) (matchingEntities snapshot query) := by
  unfold entityItems sortEntities
  rw [compareEntities_eq]
  rfl

theorem mem_matchingEntities {query : EntityListQuery} {item : GraphEntity} :
    item ∈ matchingEntities snapshot query ↔
      ∃ entity ∈ snapshot.entities, query.Matches entity ∧ item = .ofDetail entity := by
  unfold matchingEntities EntityListQuery.Matches
  simp only [List.mem_map, List.mem_filter, Bool.and_eq_true, isNoneOr_iff, Option.mem_def,
    decide_eq_true_eq, List.contains_iff_mem, and_assoc, @eq_comm _ item]

theorem matchingEntities_nodup (hvalid : snapshot.Valid) (query : EntityListQuery) :
    ((matchingEntities snapshot query).map (·.id)).Nodup := by
  unfold matchingEntities
  rw [List.map_map]
  exact hvalid.entities.sublist (List.filter_sublist.map _)

theorem listEntities_complete (hvalid : snapshot.Valid)
    (hids : ∀ entity ∈ snapshot.entities, validId entity.id) {query : EntityListQuery} {limit : ℕ}
    (hquery : validatedPage query.limit none [query.entityType, query.community] = some limit) :
    ∃ pages, PagedCompletely
      (fun after => listEntities (some snapshot) { query with after := after }) limit query.order
      query.sort.key (·.id) (fun item => ∃ entity ∈ snapshot.entities, query.Matches entity ∧
        item = .ofDetail entity) pages := by
  obtain ⟨hlimit, haccepted⟩ := validatedPage_some hquery
  have hitems : ∀ item ∈ matchingEntities snapshot query, validId item.id := by
    intro item hitem
    obtain ⟨entity, hentity, -, rfl⟩ := mem_matchingEntities.mp hitem
    exact hids entity hentity
  have hmem : (fun item => ∃ entity ∈ snapshot.entities, query.Matches entity ∧
      item = GraphEntity.ofDetail entity) = (· ∈ matchingEntities snapshot query) := by
    funext item
    rw [mem_matchingEntities]
  rw [hmem]
  apply pagedCompletely_of_fetch hlimit (matchingEntities_nodup hvalid query) hitems
  intro after hafter
  unfold listEntities
  rw [haccepted after hafter, loadSnapshot_some hvalid, ← entityItems_eq]
  rfl

theorem listEntities_sameRows (hvalid : snapshot.Valid) (h : snapshot.SameRows snapshot')
    (query : EntityListQuery) :
    listEntities (some snapshot') query = listEntities (some snapshot) query := by
  have hitems : entityItems snapshot' query = entityItems snapshot query := by
    rw [entityItems_eq, entityItems_eq]
    exact (sortBy_compareBy_perm (matchingEntities_nodup hvalid query)
      ((h.entities.filter _).map _)).symm
  unfold listEntities
  simp only [loadSnapshot_some hvalid, loadSnapshot_some (h.valid_iff.mp hvalid), hitems]

/-! ### Relationships -/

/-- The relationships that a request asks for. -/
def RelationshipListQuery.Matches (query : RelationshipListQuery)
    (relationship : GraphRelationshipDetail) : Prop :=
  (∀ value, query.source = some value → relationship.source = value) ∧
    ∀ value, query.target = some value → relationship.target = value

/-- The items before they are sorted. -/
def matchingRelationships (snapshot : GraphDataSnapshot) (query : RelationshipListQuery) :
    List GraphRelationship :=
  (snapshot.relationships.filter fun relationship =>
    isNoneOr query.source (fun value => relationship.source = value) &&
      isNoneOr query.target fun value => relationship.target = value).map .ofDetail

theorem relationshipItems_eq (query : RelationshipListQuery) :
    relationshipItems snapshot query =
      sortBy (compareBy query.order query.sort.key (·.id))
        (matchingRelationships snapshot query) := by
  unfold relationshipItems sortRelationships
  rw [compareRelationships_eq]
  rfl

theorem mem_matchingRelationships {query : RelationshipListQuery} {item : GraphRelationship} :
    item ∈ matchingRelationships snapshot query ↔
      ∃ relationship ∈ snapshot.relationships, query.Matches relationship ∧
        item = .ofDetail relationship := by
  unfold matchingRelationships RelationshipListQuery.Matches
  simp only [List.mem_map, List.mem_filter, Bool.and_eq_true, isNoneOr_iff, Option.mem_def,
    decide_eq_true_eq, and_assoc, @eq_comm _ item]

theorem matchingRelationships_nodup (hvalid : snapshot.Valid) (query : RelationshipListQuery) :
    ((matchingRelationships snapshot query).map (·.id)).Nodup := by
  unfold matchingRelationships
  rw [List.map_map]
  exact hvalid.relationships.sublist (List.filter_sublist.map _)

theorem listRelationships_complete (hvalid : snapshot.Valid)
    (hids : ∀ relationship ∈ snapshot.relationships, validId relationship.id)
    {query : RelationshipListQuery} {limit : ℕ}
    (hquery : validatedPage query.limit none [query.source, query.target] = some limit) :
    ∃ pages, PagedCompletely
      (fun after => listRelationships (some snapshot) { query with after := after }) limit
      query.order query.sort.key (·.id) (fun item => ∃ relationship ∈ snapshot.relationships,
        query.Matches relationship ∧ item = .ofDetail relationship) pages := by
  obtain ⟨hlimit, haccepted⟩ := validatedPage_some hquery
  have hitems : ∀ item ∈ matchingRelationships snapshot query, validId item.id := by
    intro item hitem
    obtain ⟨relationship, hrelationship, -, rfl⟩ := mem_matchingRelationships.mp hitem
    exact hids relationship hrelationship
  have hmem : (fun item => ∃ relationship ∈ snapshot.relationships, query.Matches relationship ∧
      item = GraphRelationship.ofDetail relationship) =
        (· ∈ matchingRelationships snapshot query) := by
    funext item
    rw [mem_matchingRelationships]
  rw [hmem]
  apply pagedCompletely_of_fetch hlimit (matchingRelationships_nodup hvalid query) hitems
  intro after hafter
  unfold listRelationships
  rw [haccepted after hafter, loadSnapshot_some hvalid, ← relationshipItems_eq]
  rfl

theorem listRelationships_sameRows (hvalid : snapshot.Valid) (h : snapshot.SameRows snapshot')
    (query : RelationshipListQuery) :
    listRelationships (some snapshot') query = listRelationships (some snapshot) query := by
  have hitems : relationshipItems snapshot' query = relationshipItems snapshot query := by
    rw [relationshipItems_eq, relationshipItems_eq]
    exact (sortBy_compareBy_perm (matchingRelationships_nodup hvalid query)
      ((h.relationships.filter _).map _)).symm
  unfold listRelationships
  simp only [loadSnapshot_some hvalid, loadSnapshot_some (h.valid_iff.mp hvalid), hitems]

/-! ### Communities -/

/-- The communities that a request asks for. -/
def CommunityListQuery.Matches (query : CommunityListQuery) (community : GraphCommunity) : Prop :=
  (∀ value, query.level = some value → community.level = value) ∧
    ∀ value, query.parent = some value → community.parent = value

/-- The report of a community. -/
def reportOf (snapshot : GraphDataSnapshot) (community : GraphCommunity) :
    Option GraphCommunityReportDetail :=
  snapshot.communityReports.find? fun report => report.communityId = community.shortId

/-- The items before they are sorted. -/
def matchingCommunities (snapshot : GraphDataSnapshot) (query : CommunityListQuery) :
    List GraphCommunity :=
  (snapshot.communities.filter fun community =>
    isNoneOr query.level (fun value => community.level = value) &&
      isNoneOr query.parent fun value => community.parent = value).map fun community =>
    community.withReport (reportOf snapshot community)

theorem communityItems_eq (query : CommunityListQuery) :
    communityItems snapshot query =
      sortBy (compareBy .asc communityKey (·.id)) (matchingCommunities snapshot query) := by
  unfold communityItems
  rw [compareCommunities_eq]
  rfl

theorem mem_matchingCommunities {query : CommunityListQuery} {item : GraphCommunity} :
    item ∈ matchingCommunities snapshot query ↔
      ∃ community ∈ snapshot.communities, query.Matches community ∧
        item = community.withReport (reportOf snapshot community) := by
  unfold matchingCommunities CommunityListQuery.Matches
  simp only [List.mem_map, List.mem_filter, Bool.and_eq_true, isNoneOr_iff, Option.mem_def,
    decide_eq_true_eq, and_assoc, @eq_comm _ item]

section

variable (hvalid : snapshot.Valid)
include hvalid

theorem matchingCommunities_nodup (query : CommunityListQuery) :
    ((matchingCommunities snapshot query).map (·.id)).Nodup := by
  unfold matchingCommunities
  rw [List.map_map]
  exact hvalid.communities.sublist (List.filter_sublist.map _)

theorem listCommunities_complete (hids : ∀ community ∈ snapshot.communities, validId community.id)
    {query : CommunityListQuery} {limit : ℕ}
    (hquery : validatedPage query.limit none [] = some limit) :
    ∃ pages, PagedCompletely
      (fun after => listCommunities (some snapshot) { query with after := after }) limit .asc
      communityKey (·.id) (fun item => ∃ community ∈ snapshot.communities,
        query.Matches community ∧ item = community.withReport (reportOf snapshot community))
      pages := by
  obtain ⟨hlimit, haccepted⟩ := validatedPage_some hquery
  have hitems : ∀ item ∈ matchingCommunities snapshot query, validId item.id := by
    intro item hitem
    obtain ⟨community, hcommunity, -, rfl⟩ := mem_matchingCommunities.mp hitem
    exact hids community hcommunity
  have hmem : (fun item => ∃ community ∈ snapshot.communities, query.Matches community ∧
      item = community.withReport (reportOf snapshot community)) =
        (· ∈ matchingCommunities snapshot query) := by
    funext item
    rw [mem_matchingCommunities]
  rw [hmem]
  apply pagedCompletely_of_fetch hlimit (matchingCommunities_nodup hvalid query) hitems
  intro after hafter
  unfold listCommunities
  rw [haccepted after hafter, loadSnapshot_some hvalid, ← communityItems_eq]
  rfl

/-- At most one report belongs to a community. -/
theorem reportOf_sameRows (h : snapshot.SameRows snapshot')
    (community : GraphCommunity) : reportOf snapshot' community = reportOf snapshot community := by
  have hfound : ∀ report, reportOf snapshot community = some report ↔
      report ∈ snapshot.communityReports ∧ report.communityId = community.shortId :=
    fun report => Table.find?_key_eq_some_iff hvalid.reportCommunities
  have hfound' : ∀ report, reportOf snapshot' community = some report ↔
      report ∈ snapshot'.communityReports ∧ report.communityId = community.shortId :=
    fun report => Table.find?_key_eq_some_iff (h.valid_iff.mp hvalid).reportCommunities
  ext report
  rw [hfound, hfound', h.communityReports.mem_iff]

theorem listCommunities_sameRows (h : snapshot.SameRows snapshot') (query : CommunityListQuery) :
    listCommunities (some snapshot') query = listCommunities (some snapshot) query := by
  have hreports : reportOf snapshot' = reportOf snapshot := by
    funext community
    exact reportOf_sameRows hvalid h community
  have hperm : (matchingCommunities snapshot query).Perm (matchingCommunities snapshot' query) := by
    unfold matchingCommunities
    rw [hreports]
    exact (h.communities.filter _).map _
  have hitems : communityItems snapshot' query = communityItems snapshot query := by
    rw [communityItems_eq, communityItems_eq]
    exact (sortBy_compareBy_perm (matchingCommunities_nodup hvalid query) hperm).symm
  unfold listCommunities
  simp only [loadSnapshot_some hvalid, loadSnapshot_some (h.valid_iff.mp hvalid), hitems]

end

/-! ### The lists -/

/-- **Lists are paged completely**: the cursors of a request lead to the rows that match it, each of
them once and in the order of the list, whatever the order of the rows in the snapshot is. -/
theorem lists_complete (hvalid : snapshot.Valid)
    (hentities : ∀ entity ∈ snapshot.entities, validId entity.id)
    (hrelationships : ∀ relationship ∈ snapshot.relationships, validId relationship.id)
    (hcommunities : ∀ community ∈ snapshot.communities, validId community.id) :
    (∀ (query : EntityListQuery) (limit : ℕ),
      validatedPage query.limit none [query.entityType, query.community] = some limit →
      ∃ pages, PagedCompletely
        (fun after => listEntities (some snapshot) { query with after := after }) limit query.order
        query.sort.key (·.id) (fun item => ∃ entity ∈ snapshot.entities, query.Matches entity ∧
          item = .ofDetail entity) pages) ∧
    (∀ (query : RelationshipListQuery) (limit : ℕ),
      validatedPage query.limit none [query.source, query.target] = some limit →
      ∃ pages, PagedCompletely
        (fun after => listRelationships (some snapshot) { query with after := after }) limit
        query.order query.sort.key (·.id) (fun item => ∃ relationship ∈ snapshot.relationships,
          query.Matches relationship ∧ item = .ofDetail relationship) pages) ∧
    (∀ (query : CommunityListQuery) (limit : ℕ),
      validatedPage query.limit none [] = some limit →
      ∃ pages, PagedCompletely
        (fun after => listCommunities (some snapshot) { query with after := after }) limit .asc
        communityKey (·.id) (fun item => ∃ community ∈ snapshot.communities,
          query.Matches community ∧ item = community.withReport (reportOf snapshot community))
        pages) ∧
    ∀ snapshot', snapshot.SameRows snapshot' →
      (∀ query, listEntities (some snapshot') query = listEntities (some snapshot) query) ∧
      (∀ query, listRelationships (some snapshot') query =
        listRelationships (some snapshot) query) ∧
      ∀ query, listCommunities (some snapshot') query = listCommunities (some snapshot) query := by
  refine ⟨fun query limit hquery => listEntities_complete hvalid hentities hquery,
    fun query limit hquery => listRelationships_complete hvalid hrelationships hquery,
    fun query limit hquery => listCommunities_complete hvalid hcommunities hquery, ?_⟩
  intro snapshot' h
  exact ⟨listEntities_sameRows hvalid h, listRelationships_sameRows hvalid h,
    listCommunities_sameRows hvalid h⟩

/-- Three entities, one without a rank, and a relationship. -/
def sampleGraph : GraphDataSnapshot where
  entities :=
    [⟨"e-1", none, "ALPHA", none, none, none, []⟩, ⟨"e-2", none, "BETA", none, none, some 7, []⟩,
      ⟨"e-3", none, "GAMMA", none, none, some 9, []⟩]
  relationships := [⟨"r-1", none, "ALPHA", "BETA", none, none⟩]
  communities := []
  communityReports := []

/-- The entities by descending rank, on pages of two. -/
def sampleQuery : EntityListQuery := ⟨none, none, some 2, none, .rank, .desc⟩

theorem lists_complete_sample :
    ∃ pages, PagedCompletely
      (fun after => listEntities (some sampleGraph) { sampleQuery with after := after }) 2 .desc
      EntitySort.rank.key (·.id) (fun item => ∃ entity ∈ sampleGraph.entities,
        sampleQuery.Matches entity ∧ item = .ofDetail entity) pages := by
  have hvalid : sampleGraph.Valid := GraphDataSnapshot.validate_iff.mp (by decide +kernel)
  have hentities : ∀ entity ∈ sampleGraph.entities, validId entity.id := by decide +kernel
  have hrelationships : ∀ relationship ∈ sampleGraph.relationships, validId relationship.id := by
    decide +kernel
  have hcommunities : ∀ community ∈ sampleGraph.communities, validId community.id := by
    decide +kernel
  obtain ⟨hlist, -⟩ := lists_complete hvalid hentities hrelationships hcommunities
  exact hlist sampleQuery 2 (by decide +kernel)

/-! ### Identifiers that are no cursor -/

/-- An identifier in the alphabet of cursors, with one byte more than a cursor can have. -/
def longId (c : Char) : String := String.ofList (List.replicate (maxIdBytes + 1) c)

def longGraph : GraphDataSnapshot where
  entities :=
    [⟨longId 'a', none, "ALPHA", none, none, none, []⟩, ⟨longId 'b', none, "BETA", none, none, none, []⟩]
  relationships := []
  communities := []
  communityReports := []

/-- The entities by title, on pages of one. -/
def longQuery : EntityListQuery := ⟨none, none, some 1, none, .title, .asc⟩

theorem longId_chars {c : Char} (hc : isIdChar c) :
    longId c ≠ "" ∧ (longId c).toList.all isIdChar := by
  have hchars : (longId c).toList = List.replicate (maxIdBytes + 1) c := String.toList_ofList
  constructor
  · intro h
    rw [h] at hchars
    cases hchars
  · rw [hchars, List.all_replicate, hc]
    rfl

/-- The cursor of the first page is refused, so that no client gets to the end of the list. -/
theorem lists_complete_longId :
    longGraph.validate ∧
    (∀ entity ∈ longGraph.entities, entity.id ≠ "" ∧ entity.id.toList.all isIdChar) ∧
    validatedPage longQuery.limit none [longQuery.entityType, longQuery.community] = some 1 ∧
    (∃ page, listEntities (some longGraph) longQuery = .json ⟨page, some (longId 'a')⟩) ∧
    listEntities (some longGraph) { longQuery with after := some (longId 'a') } =
      .fixedError .badRequest invalidGraphRequestBody ∧
    ¬ ∃ pages, Followed
      (fun after => listEntities (some longGraph) { longQuery with after := after }) none pages := by
  have hitems : entityItems longGraph longQuery = longGraph.entities.map .ofDetail :=
    List.mergeSort_of_pairwise (by decide +kernel)
  have hload : loadSnapshot (some longGraph) = some longGraph := by decide +kernel
  have hpage : validatedPage longQuery.limit longQuery.after
      [longQuery.entityType, longQuery.community] = some 1 := by
    decide +kernel
  have hfirst : listEntities (some longGraph) longQuery =
      .json ⟨(longGraph.entities.map .ofDetail).take 1, some (longId 'a')⟩ := by
    unfold listEntities
    rw [hpage, hload]
    dsimp only
    rw [hitems]
    rfl
  have hrefused : listEntities (some longGraph) { longQuery with after := some (longId 'a') } =
      .fixedError .badRequest invalidGraphRequestBody := by
    decide +kernel
  have hids : ∀ entity ∈ longGraph.entities, entity.id ≠ "" ∧ entity.id.toList.all isIdChar := by
    intro entity hentity
    rcases List.mem_pair.mp hentity with rfl | rfl
    · exact longId_chars (by decide)
    · exact longId_chars (by decide)
  refine ⟨by decide +kernel, hids, hpage, ⟨_, hfirst⟩, hrefused, ?_⟩
  rintro ⟨pages, hpages⟩
  cases hpages with
  | last hlast =>
    injection hfirst.symm.trans hlast with hpage
    injection hpage with _ hcursor
    cases hcursor
  | next hnext hrest =>
    injection hfirst.symm.trans hnext with hpage
    injection hpage with _ hcursor
    obtain rfl := Option.some.inj hcursor
    -- the next request is refused
    cases hrest with
    | last hlast => cases hrefused.symm.trans hlast
    | next hnext _ => cases hrefused.symm.trans hnext

end Lists

end GraphLoom.Studio
