import GraphLoom.Foundation.Fallible
import GraphLoom.Foundation.Index
import GraphLoom.Foundation.TreeMaps
import GraphLoom.Graph.Finalize
import Mathlib.Data.String.Basic
import Mathlib.Data.Sym.Sym2

/-!
# The final graph is consistent

The degree of a title is the number of distinct undirected pairs of titles that it belongs to, where
a loop counts twice (`pairDegree`).  It depends on the set of the pairs alone, so neither the order
nor the direction of the relationships matters (`degreeMap_eq_of_pairs`).

Rows with a key that came before are dropped, and the others get their numbers in order
(`finalizeRows_eq_ok`).  The two parts together are `finalizeGraph_consistent`.
-/

namespace GraphLoom.Foundation

/-! ### Degrees in a set of undirected pairs -/

variable {α : Type*} [DecidableEq α] {pairs : Finset (Sym2 α)} {v : α}

/-- The number of pairs with `v`, where a loop counts twice. -/
def pairDegree (pairs : Finset (Sym2 α)) (v : α) : ℕ :=
  (pairs.filter fun pair => v ∈ pair).card + (pairs.filter fun pair => pair = s(v, v)).card

theorem pairDegree_insert {a b : α} (h : s(a, b) ∉ pairs) (v : α) :
    pairDegree (insert s(a, b) pairs) v =
      pairDegree pairs v + (if a = v then 1 else 0) + if b = v then 1 else 0 := by
  have hnew : ∀ p : Sym2 α → Prop, ∀ _ : DecidablePred p, s(a, b) ∉ pairs.filter p :=
    fun p _ hmem => h (Finset.mem_of_mem_filter _ hmem)
  have hmem : v ∈ s(a, b) ↔ a = v ∨ b = v := by
    rw [Sym2.mem_iff, eq_comm, @eq_comm _ v b]
  have hloop : s(a, b) = s(v, v) ↔ a = v ∧ b = v := by
    rw [Sym2.eq_iff]
    tauto
  unfold pairDegree
  rw [Finset.filter_insert, Finset.filter_insert]
  by_cases ha : a = v <;> by_cases hb : b = v
  · rw [if_pos (hmem.mpr (.inl ha)), if_pos (hloop.mpr ⟨ha, hb⟩), if_pos ha, if_pos hb,
      Finset.card_insert_of_notMem (hnew _ _), Finset.card_insert_of_notMem (hnew _ _)]
    omega
  · rw [if_pos (hmem.mpr (.inl ha)), if_neg fun heq => hb (hloop.mp heq).2, if_pos ha, if_neg hb,
      Finset.card_insert_of_notMem (hnew _ _)]
    omega
  · rw [if_pos (hmem.mpr (.inr hb)), if_neg fun heq => ha (hloop.mp heq).1, if_neg ha, if_pos hb,
      Finset.card_insert_of_notMem (hnew _ _)]
    omega
  · rw [if_neg fun hv => (hmem.mp hv).elim ha hb, if_neg fun heq => ha (hloop.mp heq).1, if_neg ha,
      if_neg hb, Nat.add_zero]

theorem pairDegree_le (pairs : Finset (Sym2 α)) (v : α) : pairDegree pairs v ≤ 2 * pairs.card := by
  have hpairs := Finset.card_filter_le pairs fun pair => v ∈ pair
  have hloops := Finset.card_filter_le pairs fun pair => pair = s(v, v)
  unfold pairDegree
  omega

/-! ### The first rows -/

variable {ρ κ : Type*} [DecidableEq κ]

/-- The kept rows are the first ones of their keys, in the order of the rows. -/
structure FirstRows (key : ρ → κ) (rows kept : List ρ) : Prop where
  distinct : (kept.map key).Nodup
  ordered : kept.Sublist rows
  complete : ∀ row ∈ rows, ∃ first ∈ kept, key first = key row
  first : ∀ row ∈ kept, ∃ before after, rows = before ++ row :: after ∧ key row ∉ before.map key

theorem firstRows_firstOfKeys (key : ρ → κ) (rows : List ρ) :
    FirstRows key rows (firstOfKeys key rows) := by
  refine ⟨nodup_keys_firstOfKeys key rows, firstOfKeys_sublist key rows, ?_, ?_⟩
  · intro row hrow
    exact List.mem_map.mp (mem_keys_firstOfKeys.mpr (List.mem_map_of_mem hrow))
  · induction rows using List.reverseRecOn with
    | nil => exact fun row hrow => absurd hrow List.not_mem_nil
    | append_singleton rows last ih =>
      intro row hrow
      rw [firstOfKeys_concat, addFirst] at hrow
      have hbefore : ∀ row ∈ firstOfKeys key rows, ∃ before after,
          rows ++ [last] = before ++ row :: after ∧ key row ∉ before.map key := by
        intro row hrow
        obtain ⟨before, after, hrows, hnew⟩ := ih row hrow
        refine ⟨before, after ++ [last], ?_, hnew⟩
        rw [hrows, List.append_assoc, List.cons_append]
      split_ifs at hrow with hknown
      · exact hbefore row hrow
      · rcases List.mem_append.mp hrow with hrow | hrow
        · exact hbefore row hrow
        · rw [List.mem_singleton.mp hrow]
          exact ⟨rows, [], rfl, fun hmem => hknown (mem_keys_firstOfKeys.mpr hmem)⟩

end GraphLoom.Foundation

namespace GraphLoom.Graph

open Foundation
open Std (ExtTreeMap LawfulEqCmp ReflCmp)

variable {ω : Type} {rows rows' : List (SummarizedRelationshipRow ω)}

/-! ### The degrees -/

theorem sortedPair_eq_or (left right : String) :
    sortedPair left right = (left, right) ∨ sortedPair left right = (right, left) := by
  unfold sortedPair
  split_ifs
  · exact .inl rfl
  · exact .inr rfl

/-- The order forgets the direction of a pair and nothing else. -/
theorem sortedPair_eq_iff {a b c d : String} :
    sortedPair a b = sortedPair c d ↔ s(a, b) = s(c, d) := by
  have hpair : ∀ left right, s((sortedPair left right).1, (sortedPair left right).2) =
      s(left, right) := by
    intro left right
    rcases sortedPair_eq_or left right with h | h
    · rw [h]
    · rw [h]
      exact Sym2.eq_swap
  constructor
  · intro h
    rw [← hpair a b, h, hpair]
  · intro h
    rcases Sym2.eq_iff.mp h with ⟨rfl, rfl⟩ | ⟨rfl, rfl⟩
    · rfl
    · unfold sortedPair
      split_ifs with hab hba hba
      · rw [le_antisymm hab hba]
      · rfl
      · rfl
      · exact absurd (le_total a b) (not_or.mpr ⟨hab, hba⟩)

/-- The endpoints of a relationship, without its direction. -/
def SummarizedRelationshipRow.pair (row : SummarizedRelationshipRow ω) : Sym2 String :=
  s(row.source, row.target)

def pairsOf (rows : List (SummarizedRelationshipRow ω)) : Finset (Sym2 String) :=
  (rows.map SummarizedRelationshipRow.pair).toFinset

/-- The entry of a title that was counted so often. -/
def countEntry (count : ℕ) : Option ℤ := if count = 0 then none else some count

theorem getElem?_addDegree {degree : ExtTreeMap String ℤ} {title' : String} {count : ℕ}
    (h : degree[title']? = countEntry count) (title : String) :
    (addDegree degree title)[title']? =
      countEntry (count + if title = title' then 1 else 0) := by
  unfold addDegree
  rw [ExtTreeMap.getElem?_alter]
  by_cases htitle : title = title'
  · subst htitle
    rw [if_pos ReflCmp.compare_self, if_pos rfl, h, countEntry, countEntry,
      if_neg (Nat.succ_ne_zero count)]
    by_cases hcount : count = 0
    · rw [if_pos hcount, hcount]
      rfl
    · rw [if_neg hcount]
      rfl
  · rw [if_neg fun heq => htitle (LawfulEqCmp.eq_of_compare heq), if_neg htitle, h, Nat.add_zero]

/-- What the loop over the relationships has seen and counted. -/
structure Counted (rows : List (SummarizedRelationshipRow ω))
    (state : Finset (String × String) × ExtTreeMap String ℤ) : Prop where
  seen : ∀ left right, sortedPair left right ∈ state.1 ↔ s(left, right) ∈ pairsOf rows
  /-- A title without a pair has no entry. -/
  degree : ∀ title, state.2[title]? = countEntry (pairDegree (pairsOf rows) title)

theorem Counted.add {state : Finset (String × String) × ExtTreeMap String ℤ}
    (h : Counted rows state) (row : SummarizedRelationshipRow ω) :
    Counted (rows ++ [row]) (addPair state row) := by
  have hpairs : pairsOf (rows ++ [row]) = insert s(row.source, row.target) (pairsOf rows) := by
    ext pair
    simp [pairsOf, SummarizedRelationshipRow.pair]
  unfold addPair
  dsimp only
  by_cases hseen : sortedPair row.source row.target ∈ state.1
  · -- the pair came before, in one direction or the other
    rw [if_pos hseen]
    rw [Finset.insert_eq_of_mem ((h.seen _ _).mp hseen)] at hpairs
    constructor
    · rw [hpairs]
      exact h.seen
    · rw [hpairs]
      exact h.degree
  · rw [if_neg hseen]
    have hnew : s(row.source, row.target) ∉ pairsOf rows := fun hmem =>
      hseen ((h.seen _ _).mpr hmem)
    constructor
    · intro left right
      rw [hpairs, Finset.mem_insert, Finset.mem_insert, h.seen, ← sortedPair_eq_iff]
    · intro title
      rw [hpairs, pairDegree_insert hnew]
      have hentry := getElem?_addDegree (getElem?_addDegree (h.degree title)
        (sortedPair row.source row.target).1) (sortedPair row.source row.target).2
      rcases sortedPair_eq_or row.source row.target with hpair | hpair
      · rw [hpair] at hentry ⊢
        exact hentry
      · rw [hpair] at hentry ⊢
        rw [Nat.add_right_comm]
        exact hentry

theorem degreeMap_counted (rows : List (SummarizedRelationshipRow ω)) :
    Counted rows (rows.foldl addPair (∅, ∅)) := by
  induction rows using List.reverseRecOn with
  | nil =>
    constructor
    · intro left right
      simp [pairsOf]
    · intro title
      simp [pairsOf, pairDegree, countEntry]
  | append_singleton rows row ih =>
    rw [List.foldl_concat]
    exact ih.add row

/-- **The degree of a title is the number of its pairs.** -/
theorem degreeOf_degreeMap (rows : List (SummarizedRelationshipRow ω)) (title : String) :
    degreeOf (degreeMap rows) title = pairDegree (pairsOf rows) title := by
  unfold degreeOf degreeMap
  rw [(degreeMap_counted rows).degree, countEntry]
  split_ifs with h
  · rw [h]
    rfl
  · rfl

/-- **The degrees depend on the pairs alone.** -/
theorem degreeMap_eq_of_pairs (h : pairsOf rows = pairsOf rows') :
    degreeMap rows = degreeMap rows' := by
  apply ExtTreeMap.ext_getElem?
  intro title
  unfold degreeMap
  rw [(degreeMap_counted rows).degree, (degreeMap_counted rows').degree, h]

/-- The same relationship the other way round. -/
def SummarizedRelationshipRow.reversed (row : SummarizedRelationshipRow ω) :
    SummarizedRelationshipRow ω :=
  { row with source := row.target, target := row.source }

/-- The relationships in another order, and any of them reversed. -/
def Rearranged (rows rows' : List (SummarizedRelationshipRow ω)) : Prop :=
  ∃ turned, List.Forall₂ (fun row row' => row' = row ∨ row' = row.reversed) rows turned ∧
    turned.Perm rows'

theorem Rearranged.pairsOf (h : Rearranged rows rows') : pairsOf rows = pairsOf rows' := by
  obtain ⟨turned, hturned, hperm⟩ := h
  have hmap : rows.map SummarizedRelationshipRow.pair =
      turned.map SummarizedRelationshipRow.pair := by
    induction hturned generalizing rows' with
    | nil => rfl
    | @cons row row' rows turned hrow _ ih =>
      have hpair : row.pair = row'.pair := by
        rcases hrow with rfl | rfl
        · rfl
        · exact Sym2.eq_swap
      rw [List.map_cons, List.map_cons, hpair, ih (List.Perm.refl turned)]
  unfold Graph.pairsOf
  rw [hmap]
  exact List.toFinset_eq_of_perm _ _ (hperm.map _)

theorem Rearranged.length_eq (h : Rearranged rows rows') : rows'.length = rows.length := by
  obtain ⟨turned, hturned, hperm⟩ := h
  rw [← hperm.length_eq, hturned.length_eq]

/-! ### The rows -/

section Rows

variable {ρ κ σ : Type} [DecidableEq κ] {key : ρ → κ} {final : ℕ → ℤ → ρ → σ}

/-- The rows with their numbers. -/
def numbered (final : ℕ → ℤ → ρ → σ) (rows : List ρ) : List σ :=
  rows.zipIdx.map fun entry => final entry.2 entry.2 entry.1

theorem numbered_concat (final : ℕ → ℤ → ρ → σ) (rows : List ρ) (row : ρ) :
    numbered final (rows ++ [row]) = numbered final rows ++ [final rows.length rows.length row] := by
  simp [numbered, List.zipIdx_append]

theorem length_numbered (final : ℕ → ℤ → ρ → σ) (rows : List ρ) :
    (numbered final rows).length = rows.length := by
  simp [numbered]

theorem map_numbered {f : σ → ρ} (h : ∀ n i row, f (final n i row) = row) (rows : List ρ) :
    (numbered final rows).map f = rows := by
  unfold numbered
  rw [List.map_map]
  have hf : (f ∘ fun entry : ρ × ℕ => final entry.2 entry.2 entry.1) = Prod.fst := by
    ext entry
    exact h _ _ _
  rw [hf, List.zipIdx_map_fst]

theorem map_number_numbered {number : σ → ℤ} (h : ∀ n i row, number (final n i row) = i)
    (rows : List ρ) :
    (numbered final rows).map number = (List.range rows.length).map fun n : ℕ => (n : ℤ) := by
  unfold numbered
  rw [List.map_map, List.range_eq_range', ← List.zipIdx_map_snd 0 rows, List.map_map]
  apply List.map_congr_left
  intro entry _
  exact h _ _ _

theorem of_mem_numbered {rows : List ρ} {last : σ} (h : last ∈ numbered final rows) :
    ∃ n i row, last = final n i row := by
  obtain ⟨entry, -, rfl⟩ := List.mem_map.mp h
  exact ⟨_, _, _, rfl⟩

/-- **The loop keeps the first rows and numbers them.** -/
theorem finalizeRows_eq_ok {rows : List ρ} (h : (rows.length : ℤ) ≤ i64Max) :
    finalizeRows key final rows = .ok (numbered final (firstOfKeys key rows)) := by
  have hloop : rows.foldlM (finalizeRow key final) (∅, []) =
      .ok (((firstOfKeys key rows).map key).toFinset, numbered final (firstOfKeys key rows)) := by
    induction rows using List.reverseRecOn with
    | nil => rfl
    | append_singleton rows row ih =>
      rw [List.length_append, List.length_singleton] at h
      have hlength := (firstOfKeys_sublist key rows).length_le
      rw [List.foldlM_append, ih (by omega), firstOfKeys_concat, addFirst]
      show List.foldlM (finalizeRow key final) _ [row] = _
      rw [List.foldlM_cons, finalizeRow]
      dsimp only
      by_cases hknown : key row ∈ (firstOfKeys key rows).map key
      · rw [if_pos (List.mem_toFinset.mpr hknown), if_pos hknown]
        rfl
      · have hnumber : usizeToI64 (numbered final (firstOfKeys key rows)).length
            finalizeGraphContext "human_readable_id" = .ok ((firstOfKeys key rows).length : ℤ) := by
          rw [length_numbered, usizeToI64_eq_ok_iff]
          exact ⟨rfl, by omega⟩
        have hseen : insert (key row) ((firstOfKeys key rows).map key).toFinset =
            ((firstOfKeys key rows ++ [row]).map key).toFinset := by
          ext k
          simp
        rw [if_neg fun hmem => hknown (List.mem_toFinset.mp hmem), if_neg hknown, hnumber,
          numbered_concat, ← hseen, length_numbered]
        rfl
  rw [finalizeRows, hloop]
  rfl

end Rows

/-! ### The graph -/

/-- A slice of rows of 104 bytes: each has four strings or vectors of 24 bytes and a number.  No
slice has more than `isize::MAX` bytes. -/
structure Slice (ρ : Type) where
  rows : List ρ
  bytes : 104 * (rows.length : ℤ) ≤ i64Max

/-- What a final row copies. -/
def FinalEntityRow.summarized (row : FinalEntityRow) : SummarizedEntityRow where
  title := row.title
  entityType := row.entityType
  description := row.description
  textUnitIds := row.textUnitIds
  frequency := row.frequency

/-- What a final row copies. -/
def FinalRelationshipRow.summarized (row : FinalRelationshipRow ω) :
    SummarizedRelationshipRow ω where
  source := row.source
  target := row.target
  description := row.description
  textUnitIds := row.textUnitIds
  weight := row.weight

/-- The rows of a final graph of summarized rows. -/
structure Consistent (entities : List SummarizedEntityRow)
    (relationships : List (SummarizedRelationshipRow ω)) (graph : FinalizedGraph ω) : Prop where
  titles : FirstRows SummarizedEntityRow.title entities
    (graph.entities.map FinalEntityRow.summarized)
  endpoints : FirstRows SummarizedRelationshipRow.key relationships
    (graph.relationships.map FinalRelationshipRow.summarized)
  degree : ∀ row ∈ graph.entities, row.degree = pairDegree (pairsOf relationships) row.title
  combinedDegree : ∀ row ∈ graph.relationships, row.combinedDegree =
    pairDegree (pairsOf relationships) row.source + pairDegree (pairsOf relationships) row.target
  entityNumbers : graph.entities.map FinalEntityRow.humanReadableId =
    (List.range graph.entities.length).map fun n : ℕ => (n : ℤ)
  relationshipNumbers : graph.relationships.map FinalRelationshipRow.humanReadableId =
    (List.range graph.relationships.length).map fun n : ℕ => (n : ℤ)

/-- The sum of two degrees is no overflow. -/
theorem saturatingAdd_degreeOf (relationships : Slice (SummarizedRelationshipRow ω))
    (title title' : String) :
    saturatingAdd (degreeOf (degreeMap relationships.rows) title)
      (degreeOf (degreeMap relationships.rows) title') =
        pairDegree (pairsOf relationships.rows) title +
          pairDegree (pairsOf relationships.rows) title' := by
  have hbytes := relationships.bytes
  have hpairs : (pairsOf relationships.rows).card ≤ relationships.rows.length := by
    refine (List.toFinset_card_le _).trans ?_
    rw [List.length_map]
  have hfirst := pairDegree_le (pairsOf relationships.rows) title
  have hsecond := pairDegree_le (pairsOf relationships.rows) title'
  rw [degreeOf_degreeMap, degreeOf_degreeMap]
  unfold saturatingAdd i64Min i64Max at *
  omega

/-- The graph of the first rows. -/
def firstGraph (ids : NewIds) (entities : List SummarizedEntityRow)
    (relationships : List (SummarizedRelationshipRow ω)) : FinalizedGraph ω where
  entities := numbered (finalEntity ids (degreeMap relationships))
    (firstOfKeys SummarizedEntityRow.title entities)
  relationships := numbered (finalRelationship ids (degreeMap relationships))
    (firstOfKeys SummarizedRelationshipRow.key relationships)

theorem finalizeGraph_eq_ok (ids : NewIds) {entities : List SummarizedEntityRow}
    {relationships : List (SummarizedRelationshipRow ω)} (hentities : (entities.length : ℤ) ≤ i64Max)
    (hrelationships : (relationships.length : ℤ) ≤ i64Max) :
    finalizeGraph ids entities relationships = .ok (firstGraph ids entities relationships) := by
  unfold finalizeGraph finalizeEntities finalizeRelationships
  dsimp only
  rw [finalizeRows_eq_ok hentities, finalizeRows_eq_ok hrelationships]
  rfl

theorem firstGraph_consistent (ids : NewIds) (entities : List SummarizedEntityRow)
    (relationships : Slice (SummarizedRelationshipRow ω)) :
    Consistent entities relationships.rows (firstGraph ids entities relationships.rows) := by
  unfold firstGraph
  constructor
  · dsimp only
    rw [map_numbered fun _ _ _ => rfl]
    exact firstRows_firstOfKeys _ _
  · dsimp only
    rw [map_numbered fun _ _ _ => rfl]
    exact firstRows_firstOfKeys _ _
  · intro row hrow
    obtain ⟨n, i, summarized, rfl⟩ := of_mem_numbered hrow
    exact degreeOf_degreeMap _ _
  · intro row hrow
    obtain ⟨n, i, summarized, rfl⟩ := of_mem_numbered hrow
    exact saturatingAdd_degreeOf relationships _ _
  · rw [map_number_numbered fun _ _ _ => rfl, length_numbered]
  · rw [map_number_numbered fun _ _ _ => rfl, length_numbered]

/-- **The final graph is consistent**, and the degrees are those of the relationships in any order
and direction. -/
theorem finalizeGraph_consistent (ids : NewIds) (entities : Slice SummarizedEntityRow)
    (relationships : Slice (SummarizedRelationshipRow ω)) :
    ∃ graph, finalizeGraph ids entities.rows relationships.rows = .ok graph ∧
      Consistent entities.rows relationships.rows graph ∧
      ∀ relationships', Rearranged relationships.rows relationships' →
        degreeMap relationships' = degreeMap relationships.rows ∧
        ∃ graph', finalizeGraph ids entities.rows relationships' = .ok graph' ∧
          Consistent entities.rows relationships' graph' ∧ graph'.entities = graph.entities ∧
          ∀ row ∈ graph.relationships, ∀ row' ∈ graph'.relationships,
            s(row'.source, row'.target) = s(row.source, row.target) →
              row'.combinedDegree = row.combinedDegree := by
  have hentities := entities.bytes
  have hrelationships := relationships.bytes
  have hconsistent := firstGraph_consistent ids entities.rows relationships
  refine ⟨_, finalizeGraph_eq_ok ids (by omega) (by omega), hconsistent, ?_⟩
  intro relationships' hrearranged
  have hpairs := hrearranged.pairsOf
  have hlength := hrearranged.length_eq
  have hconsistent' := firstGraph_consistent ids entities.rows
    ⟨relationships', by rw [hlength]; exact hrelationships⟩
  have hdegrees := degreeMap_eq_of_pairs hpairs
  refine ⟨hdegrees.symm, _, finalizeGraph_eq_ok ids (by omega) (by omega), hconsistent', ?_, ?_⟩
  · unfold firstGraph
    rw [hdegrees]
  · intro row hrow row' hrow' hends
    rw [hconsistent.combinedDegree row hrow, hconsistent'.combinedDegree row' hrow', ← hpairs]
    rcases Sym2.eq_iff.mp hends with ⟨hsource, htarget⟩ | ⟨hsource, htarget⟩
    · rw [hsource, htarget]
    · rw [hsource, htarget, add_comm]

def sampleIds : NewIds := ⟨fun n => "entity-" ++ toString n, fun n => "relationship-" ++ toString n⟩

def sampleEntities : List SummarizedEntityRow :=
  [⟨"ALICE", "PERSON", "A.", ["t1"], 1⟩, ⟨"BOB", "PERSON", "B.", ["t1"], 1⟩,
    ⟨"BOB", "ORGANIZATION", "C.", ["t2"], 1⟩]

def sampleRelationships : List (SummarizedRelationshipRow ℕ) :=
  [⟨"ALICE", "BOB", "first", ["t1"], 1⟩, ⟨"BOB", "BOB", "loop", ["t1"], 2⟩]

/-- The first relationship is reversed and comes last. -/
theorem finalizeGraph_consistent_reversed :
    ∃ graph graph', finalizeGraph sampleIds sampleEntities sampleRelationships = .ok graph ∧
      Consistent sampleEntities sampleRelationships graph ∧
      finalizeGraph sampleIds sampleEntities
        [⟨"BOB", "BOB", "loop", ["t1"], 2⟩, ⟨"BOB", "ALICE", "first", ["t1"], 1⟩] = .ok graph' ∧
      graph'.entities = graph.entities := by
  obtain ⟨graph, hgraph, hconsistent, hrearranged⟩ := finalizeGraph_consistent sampleIds
    ⟨sampleEntities, by decide⟩ ⟨sampleRelationships, by decide⟩
  obtain ⟨-, graph', hgraph', -, hentities, -⟩ := hrearranged
    [⟨"BOB", "BOB", "loop", ["t1"], 2⟩, ⟨"BOB", "ALICE", "first", ["t1"], 1⟩]
    ⟨_, .cons (.inr rfl) (.cons (.inl rfl) .nil), .swap _ _ _⟩
  exact ⟨graph, graph', hgraph, hconsistent, hgraph', hentities⟩

end GraphLoom.Graph
