import GraphLoom.Query.Global.Context

/-!
# The batches partition the reports

The batches hold each report that passes the rank filter once, within the budget of tokens unless
they hold one report, and what they are rendered as agrees (`buildWithSeed_batches`).
-/

namespace GraphLoom.Query.Global

open Foundation Std

/-! ### The shuffle -/

namespace PythonRandom

variable {α : Type} {fuel : ℕ}

theorem swapIfInBounds_perm (values : Array α) (i j : ℕ) :
    (values.swapIfInBounds i j).toList.Perm values.toList := by
  unfold Array.swapIfInBounds
  split_ifs with hi hj
  · exact (Array.swap_perm hi hj).toList
  · exact List.Perm.refl _
  · exact List.Perm.refl _

variable {random : PythonRandom} {uppers : List ℕ}

theorem shuffleLoop_perm {values values' : Array α}
    (h : shuffleLoop fuel uppers random values = some values') :
    values'.toList.Perm values.toList := by
  induction uppers generalizing random values with
  | nil =>
    obtain rfl := Option.some.inj h
    exact List.Perm.refl _
  | cons upper rest ih =>
    obtain ⟨⟨selected, random'⟩, -, h⟩ := Option.bind_eq_some_iff.mp h
    exact (ih h).trans (swapIfInBounds_perm values upper selected)

/-- Shuffling only permutes. -/
theorem shuffle_perm {values values' : List α}
    (h : random.shuffle fuel values = some values') : values'.Perm values := by
  obtain ⟨shuffled, hshuffled, rfl⟩ := Option.map_eq_some_iff.mp h
  exact shuffleLoop_perm hshuffled

/-- With more fuel a draw is the same. -/
theorem randBelow_mono {upper fuel' : ℕ} (hle : fuel ≤ fuel')
    {drawn : ℕ × PythonRandom} (h : randBelow upper fuel random = some drawn) :
    randBelow upper fuel' random = some drawn := by
  induction fuel generalizing fuel' random with
  | zero => cases h
  | succ fuel ih =>
    obtain ⟨fuel', rfl⟩ := Nat.exists_eq_add_of_lt hle
    obtain ⟨next, hbits, h⟩ := Option.bind_eq_some_iff.mp h
    refine Option.bind_eq_some_iff.mpr ⟨next, hbits, ?_⟩
    dsimp only at h ⊢
    split_ifs at h ⊢ with hlt
    · exact h
    · exact ih (Nat.le_add_right fuel fuel') h

theorem shuffleLoop_mono {fuel' : ℕ} (hle : fuel ≤ fuel')
    {values values' : Array α} (h : shuffleLoop fuel uppers random values = some values') :
    shuffleLoop fuel' uppers random values = some values' := by
  induction uppers generalizing random values with
  | nil => exact h
  | cons upper rest ih =>
    obtain ⟨drawn, hdrawn, h⟩ := Option.bind_eq_some_iff.mp h
    exact Option.bind_eq_some_iff.mpr ⟨drawn, randBelow_mono hle hdrawn, ih h⟩

/-- From every state of the generator on, one of its words is below the bound. -/
def DrawsBelow (upper : ℕ) : Prop := ∀ random, ∃ fuel, (randBelow upper fuel random).isSome

theorem exists_shuffleLoop (hdraws : ∀ upper ∈ uppers, DrawsBelow (upper + 1))
    (random : PythonRandom) (values : Array α) :
    ∃ fuel, (shuffleLoop fuel uppers random values).isSome := by
  induction uppers generalizing random values with
  | nil => exact ⟨0, rfl⟩
  | cons upper rest ih =>
    obtain ⟨fuel, hdrawn⟩ := hdraws upper List.mem_cons_self random
    obtain ⟨⟨selected, random'⟩, hdrawn⟩ := Option.isSome_iff_exists.mp hdrawn
    obtain ⟨fuel', hrest⟩ := ih (fun upper hupper => hdraws upper (List.mem_cons_of_mem _ hupper))
      random' (values.swapIfInBounds upper selected)
    obtain ⟨shuffled, hrest⟩ := Option.isSome_iff_exists.mp hrest
    refine ⟨max fuel fuel', Option.isSome_iff_exists.mpr ⟨shuffled, ?_⟩⟩
    exact Option.bind_eq_some_iff.mpr ⟨_, randBelow_mono (Nat.le_max_left ..) hdrawn,
      shuffleLoop_mono (Nat.le_max_right ..) hrest⟩

end PythonRandom

/-! ### The order of a batch -/

/-- Neither the weight nor the rank is a NaN. -/
def Comparable (value : WeightedReport) : Prop :=
  value.occurrenceWeight.isNaN = false ∧ ∃ rank, value.report.rank = some rank ∧ rank.isNaN = false

def weightKey (value : WeightedReport) : ℤ := value.occurrenceWeight.orderKey

def rankKey (value : WeightedReport) : ℤ := (rankOrDefault value.report).orderKey

/-- `compareReports` without NaN. -/
def compareKeys (left right : WeightedReport) : Ordering :=
  (compare (weightKey right) (weightKey left)).then (compare (rankKey right) (rankKey left))

theorem compareReports_eq {left right : WeightedReport} (hleft : Comparable left)
    (hright : Comparable right) : compareReports left right = compareKeys left right := by
  obtain ⟨hweight, rank, hrank, hnan⟩ := hleft
  obtain ⟨hweight', rank', hrank', hnan'⟩ := hright
  unfold compareReports compareKeys weightKey rankKey rankOrDefault
  rw [hrank, hrank', F64.partialCmp_eq hweight' hweight]
  show (compare _ _).then ((F64.partialCmp rank' rank).getD .eq) = _
  rw [F64.partialCmp_eq hnan' hnan]
  rfl

instance compareKeys_transCmp : TransCmp compareKeys := by
  have hlex : compareKeys = compareLex
      (fun left right => compare (weightKey right) (weightKey left))
      (fun left right => compare (rankKey right) (rankKey left)) := rfl
  have hweight : TransCmp fun left right => compare (weightKey right) (weightKey left) :=
    @TransCmp.opposite _ _ (@transCmp_on _ _ compare _ weightKey)
  have hrank : TransCmp fun left right => compare (rankKey right) (rankKey left) :=
    @TransCmp.opposite _ _ (@transCmp_on _ _ compare _ rankKey)
  rw [hlex]
  infer_instance

/-- The same weight and the same rank. -/
def Tied (left right : WeightedReport) : Prop :=
  weightKey left = weightKey right ∧ rankKey left = rankKey right

instance : DecidableRel Tied := fun left right =>
  inferInstanceAs (Decidable (weightKey left = weightKey right ∧ rankKey left = rankKey right))

/-- The rows of a batch: those of the group by descending weight and then rank, tied ones in their
order. -/
structure SortedBatch (group sorted : List WeightedReport) : Prop where
  perm : sorted.Perm group
  order : sorted.Pairwise fun left right => weightKey right < weightKey left ∨
    weightKey right = weightKey left ∧ rankKey right ≤ rankKey left
  stable : ∀ report, sorted.filter (Tied report ·) = group.filter (Tied report ·)

theorem compareKeys_eq_eq_iff {left right : WeightedReport} :
    compareKeys left right = .eq ↔ Tied left right := by
  unfold compareKeys Tied
  rw [Ordering.then_eq_eq, Std.compare_eq_iff_eq, Std.compare_eq_iff_eq]
  exact and_congr eq_comm eq_comm

theorem sortBy_sortedBatch {group : List WeightedReport} (h : ∀ report ∈ group, Comparable report) :
    SortedBatch group (sortBy compareReports group) := by
  have hkeys : sortBy compareReports group = sortBy compareKeys group :=
    sortBy_congr fun left hleft right hright =>
      compareReports_eq (h left hleft) (h right hright)
  rw [hkeys]
  refine ⟨sortBy_perm, sortBy_pairwise.imp fun {left right} hle => ?_, fun report => ?_⟩
  · unfold compareKeys at hle
    rw [Ordering.isLE_then_iff_or, compare_lt_iff_lt, Std.compare_eq_iff_eq, isLE_compare] at hle
    exact hle
  · have hstable := @filter_sortBy _ compareKeys group _ report
    simp only [compareKeys_eq_eq_iff] at hstable
    exact hstable

/-! ### The batches -/

namespace GlobalContextBuilder

variable {ν : Type} {builder : GlobalContextBuilder} {captureReportIds : Bool}

def tokenCount (builder : GlobalContextBuilder) (text : String) : ℕ :=
  match builder.tokenizer.count text with
  | .ok tokens => tokens
  | .error _ => 0

theorem tokenCount_of_count {text operation : String} {tokens : ℕ}
    (h : builder.count text operation = .ok tokens) :
    builder.tokenCount text = tokens ∧ tokens ≤ usizeMax := by
  unfold count at h
  unfold tokenCount
  cases hcount : builder.tokenizer.count text with
  | error message =>
    rw [hcount] at h
    cases h
  | ok counted =>
    rw [hcount] at h
    obtain rfl := Except.ok.inj h
    exact ⟨rfl, builder.tokenizer.count_le text counted hcount⟩

def rowTokens (builder : GlobalContextBuilder) (report : WeightedReport) : ℕ :=
  builder.tokenCount (delimitedRecord (builder.reportRow report))

def headerTokens (builder : GlobalContextBuilder) : ℕ :=
  builder.tokenCount (sectionTitle contextName ++ delimitedRecord columns)

/-- The tokens of the header and the rows, as many as a `usize` holds. -/
def groupTokens (builder : GlobalContextBuilder) (group : List WeightedReport) : ℕ :=
  min usizeMax (builder.headerTokens + (group.map builder.rowTokens).sum)

theorem groupTokens_concat (group : List WeightedReport) (report : WeightedReport) :
    builder.groupTokens (group ++ [report]) =
      usizeAdd (builder.groupTokens group) (builder.rowTokens report) := by
  unfold groupTokens usizeAdd
  rw [List.map_append, List.sum_append, List.map_singleton, List.sum_singleton]
  omega

/-- The text of the batch of a group. -/
def renderBatch (builder : GlobalContextBuilder) (group : List WeightedReport) :
    Except QueryError String :=
  (⟨columns, (sortBy compareReports group).map builder.reportRow⟩ : ContextTable).renderCsv .global
    "render Global community batch" builder.csv

/-- The outputs are what the groups are rendered as, index by index. -/
structure Renders (builder : GlobalContextBuilder) (captureReportIds : Bool)
    (groups : List (List WeightedReport)) (outputs : BatchOutputs) : Prop where
  texts : List.Forall₂ (fun group text => builder.renderBatch group = .ok text) groups
    outputs.batches
  records : outputs.records =
    groups.map fun group => reportDataframe (sortBy compareReports group)
  ids : outputs.batchReportIds = if captureReportIds then
    groups.map fun group => (sortBy compareReports group).map (·.report.id) else []

/-- Within the budget, unless there is one report. -/
def Fits (builder : GlobalContextBuilder) (group : List WeightedReport) : Prop :=
  group.length = 1 ∨ builder.groupTokens group ≤ builder.config.maxContextTokens

/-- The groups have been cut off the reports. -/
structure Cut (builder : GlobalContextBuilder) (captureReportIds : Bool)
    (reports : List WeightedReport) (groups : List (List WeightedReport))
    (outputs : BatchOutputs) : Prop where
  partition : groups.flatten = reports
  nonempty : ∀ group ∈ groups, group ≠ []
  fits : ∀ group ∈ groups, builder.Fits group
  renders : builder.Renders captureReportIds groups outputs

theorem Cut.nil : builder.Cut captureReportIds [] [] ⟨[], [], []⟩ := by
  refine ⟨rfl, fun group hgroup => absurd hgroup List.not_mem_nil,
    fun group hgroup => absurd hgroup List.not_mem_nil, .nil, rfl, ?_⟩
  show ([] : List (List String)) = if captureReportIds then [] else []
  rw [ite_self]

/-- One more group is cut off, unless it is empty. -/
theorem cutBatch_cut {reports current : List WeightedReport} {groups : List (List WeightedReport)}
    {outputs outputs' : BatchOutputs} (hcut : builder.Cut captureReportIds reports groups outputs)
    (hfits : current ≠ [] → builder.Fits current)
    (h : builder.cutBatch captureReportIds current outputs = .ok outputs') :
    ∃ groups', builder.Cut captureReportIds (reports ++ current) groups' outputs' := by
  unfold cutBatch at h
  by_cases hempty : current.isEmpty
  · rw [if_pos hempty] at h
    obtain rfl := Except.ok.inj h
    refine ⟨groups, ?_⟩
    rw [List.isEmpty_iff.mp hempty, List.append_nil]
    exact hcut
  · rw [if_neg hempty] at h
    have hne : current ≠ [] := mt List.isEmpty_iff.mpr hempty
    obtain ⟨text, htext, h⟩ := bind_eq_ok.mp h
    obtain rfl := Except.ok.inj h
    refine ⟨groups ++ [current], ?_, ?_, ?_, ?_, ?_, ?_⟩
    · rw [List.flatten_append, hcut.partition, List.flatten_singleton]
    · intro group hgroup
      rcases List.mem_append.mp hgroup with hgroup | hgroup
      · exact hcut.nonempty group hgroup
      · rw [List.mem_singleton.mp hgroup]
        exact hne
    · intro group hgroup
      rcases List.mem_append.mp hgroup with hgroup | hgroup
      · exact hcut.fits group hgroup
      · rw [List.mem_singleton.mp hgroup]
        exact hfits hne
    · exact List.rel_append hcut.renders.texts (.cons htext .nil)
    · rw [List.map_append, List.map_singleton, ← hcut.renders.records]
    · rw [List.map_append, List.map_singleton]
      have hids := hcut.renders.ids
      cases captureReportIds with
      | false => exact hids
      | true =>
        show outputs.batchReportIds ++ _ = _
        rw [hids]
        rfl

/-- The loop cuts groups off the rest, and leaves an open one. -/
theorem batchLoop_cut {initialTokens : ℕ} (hinitial : initialTokens = builder.headerTokens)
    {rest reports current current' : List WeightedReport}
    {groups : List (List WeightedReport)} {currentTokens : ℕ} {outputs outputs' : BatchOutputs}
    (hcut : builder.Cut captureReportIds reports groups outputs)
    (htokens : currentTokens = builder.groupTokens current)
    (hfits : current ≠ [] → builder.Fits current)
    (h : builder.batchLoop captureReportIds initialTokens rest current currentTokens outputs =
      .ok (current', outputs')) :
    ∃ reports' groups', builder.Cut captureReportIds reports' groups' outputs' ∧
      reports' ++ current' = reports ++ current ++ rest ∧
      (current' ≠ [] → builder.Fits current') := by
  induction rest generalizing reports current groups currentTokens outputs with
  | nil =>
    obtain ⟨rfl, rfl⟩ := Prod.mk.inj (Except.ok.inj h)
    refine ⟨reports, groups, hcut, ?_, hfits⟩
    rw [List.append_nil]
  | cons report rest ih =>
    rw [batchLoop] at h
    obtain ⟨rowText, hrow, h⟩ := bind_eq_ok.mp h
    obtain ⟨tokens, hcount, h⟩ := bind_eq_ok.mp h
    have hrowText : delimitedRecord (builder.reportRow report) = rowText := Except.ok.inj hrow
    have hrowTokens : builder.rowTokens report = tokens := by
      unfold rowTokens
      rw [hrowText]
      exact (tokenCount_of_count hcount).1
    by_cases hover : builder.config.maxContextTokens < usizeAdd currentTokens tokens
    · rw [if_pos hover] at h
      obtain ⟨outputs'', hcutBatch, h⟩ := bind_eq_ok.mp h
      obtain ⟨groups'', hcut''⟩ := cutBatch_cut hcut hfits hcutBatch
      have hone : usizeAdd initialTokens tokens = builder.groupTokens [report] := by
        unfold groupTokens usizeAdd
        rw [List.map_singleton, List.sum_singleton, hinitial, hrowTokens]
      obtain ⟨reports', groups', hcut', heq, hfits'⟩ := ih hcut'' hone (fun _ => .inl rfl) h
      refine ⟨reports', groups', hcut', ?_, hfits'⟩
      rw [heq, List.append_assoc _ [report], List.singleton_append]
    · rw [if_neg hover] at h
      have hnext : usizeAdd currentTokens tokens = builder.groupTokens (current ++ [report]) := by
        rw [groupTokens_concat, htokens, hrowTokens]
      have hwithin : builder.Fits (current ++ [report]) := by
        refine .inr ?_
        rw [← hnext]
        exact Nat.le_of_not_lt hover
      obtain ⟨reports', groups', hcut', heq, hfits'⟩ := ih hcut hnext (fun _ => hwithin) h
      refine ⟨reports', groups', hcut', ?_, hfits'⟩
      rw [heq, ← List.append_assoc, List.append_assoc _ [report], List.singleton_append]

theorem batch_cut {reports : List WeightedReport} {usage : QueryUsageCategory}
    {dynamicRatings : List (DynamicRating ν)} {result : GlobalContextResult ν}
    (h : builder.batch reports usage dynamicRatings captureReportIds = .ok result) :
    ∃ groups, builder.Cut captureReportIds reports groups result.toBatchOutputs := by
  unfold batch at h
  by_cases hempty : reports.isEmpty
  · rw [if_pos hempty] at h
    obtain rfl := Except.ok.inj h
    rw [List.isEmpty_iff.mp hempty]
    exact ⟨[], Cut.nil⟩
  · rw [if_neg hempty] at h
    obtain ⟨initial, hinitial, h⟩ := bind_eq_ok.mp h
    obtain ⟨initialTokens, hcount, h⟩ := bind_eq_ok.mp h
    obtain ⟨⟨current, outputs⟩, hloop, h⟩ := bind_eq_ok.mp h
    obtain ⟨outputs', hlast, h⟩ := bind_eq_ok.mp h
    obtain rfl := Except.ok.inj h
    have hheader : sectionTitle contextName ++ delimitedRecord columns = initial :=
      Except.ok.inj hinitial
    obtain ⟨htokens, hle⟩ := tokenCount_of_count hcount
    rw [← hheader] at htokens
    have hstart : initialTokens = builder.groupTokens [] := by
      unfold groupTokens headerTokens
      rw [htokens, List.map_nil, List.sum_nil, Nat.add_zero, min_eq_right hle]
    obtain ⟨reports', groups', hcut, heq, hfits⟩ := batchLoop_cut htokens.symm Cut.nil hstart
      (fun hne => absurd rfl hne) hloop
    obtain ⟨groups, hlastCut⟩ := cutBatch_cut hcut hfits hlast
    rw [heq] at hlastCut
    exact ⟨groups, hlastCut⟩

/-! ### The reports -/

theorem isNaN_of_geZero {x : F64} (h : x.geZero = true) : x.isNaN = false := by
  unfold F64.geZero at h
  rw [Bool.and_eq_true, Bool.not_eq_true'] at h
  exact h.1

theorem weightedReports_comparable {reports : List Query.CommunityReport} {value : WeightedReport}
    (h : value ∈ builder.weightedReports reports) : Comparable value := by
  obtain ⟨report, hreport, rfl⟩ := List.mem_map.mp h
  obtain ⟨rank, hrank, hge⟩ := (Option.any_eq_true _ _).mp (List.mem_filter.mp hreport).2
  refine ⟨?_, rank, hrank, isNaN_of_geZero hge⟩
  dsimp only
  split_ifs
  · rfl
  · exact F64.isNaN_ofRat _

theorem map_report_weightedReports (reports : List Query.CommunityReport) :
    (builder.weightedReports reports).map (·.report) = reports.filter passesRank := by
  unfold weightedReports
  rw [List.map_map]
  exact List.map_id _

/-- The context is made of batches of the reports that pass the rank filter, with each in one.  It
does not depend on the fuel, and there is enough of it if the generator draws below each bound. -/
theorem buildWithSeed_batches (builder : GlobalContextBuilder) (seed : UInt32) (fuel : ℕ)
    (reports : List Query.CommunityReport) (usage : QueryUsageCategory)
    (dynamicRatings : List (DynamicRating ν)) (captureReportIds : Bool) :
    (builder.weightedReports reports).map (·.report) = reports.filter passesRank ∧
    (∀ result, builder.buildWithSeed seed fuel reports usage dynamicRatings captureReportIds =
        some (.ok result) →
      ∃ shuffled groups, shuffled.Perm (builder.weightedReports reports) ∧
        builder.Cut captureReportIds shuffled groups result.toBatchOutputs ∧
        ∀ group ∈ groups, SortedBatch group (sortBy compareReports group)) ∧
    (∀ outcome, builder.buildWithSeed seed fuel reports usage dynamicRatings captureReportIds =
        some outcome →
      ∀ fuel' ≥ fuel, builder.buildWithSeed seed fuel' reports usage dynamicRatings
        captureReportIds = some outcome) ∧
    ((∀ upper < reports.length, PythonRandom.DrawsBelow (upper + 1)) →
      ∃ fuel', (builder.buildWithSeed seed fuel' reports usage dynamicRatings
        captureReportIds).isSome) := by
  refine ⟨map_report_weightedReports reports, fun result h => ?_, fun outcome h fuel' hle => ?_,
    fun hdraws => ?_⟩
  · obtain ⟨shuffled, hshuffled, hbatch⟩ := Option.map_eq_some_iff.mp h
    have hperm := PythonRandom.shuffle_perm hshuffled
    obtain ⟨groups, hcut⟩ := batch_cut hbatch
    refine ⟨shuffled, groups, hperm, hcut, fun group hgroup => ?_⟩
    refine sortBy_sortedBatch fun report hreport => ?_
    have hmem : report ∈ shuffled := by
      rw [← hcut.partition]
      exact List.mem_flatten.mpr ⟨group, hgroup, hreport⟩
    exact weightedReports_comparable (hperm.mem_iff.mp hmem)
  · obtain ⟨shuffled, hshuffled, houtcome⟩ := Option.map_eq_some_iff.mp h
    obtain ⟨values, hvalues, rfl⟩ := Option.map_eq_some_iff.mp hshuffled
    exact Option.map_eq_some_iff.mpr ⟨_, Option.map_eq_some_iff.mpr ⟨values,
      PythonRandom.shuffleLoop_mono hle hvalues, rfl⟩, houtcome⟩
  · have hlength : (builder.weightedReports reports).length ≤ reports.length := by
      rw [← List.length_map, map_report_weightedReports]
      exact List.length_filter_le _ _
    obtain ⟨fuel', hshuffled⟩ := @PythonRandom.exists_shuffleLoop _
      (List.range' 1 ((builder.weightedReports reports).length - 1)).reverse
      (fun upper hupper => hdraws upper (by
        rw [List.mem_reverse, List.mem_range'_1] at hupper
        omega)) (.new seed) (builder.weightedReports reports).toArray
    refine ⟨fuel', ?_⟩
    rw [buildWithSeed, Option.isSome_map, PythonRandom.shuffle, Option.isSome_map]
    exact hshuffled

/-- One report of one community, with a budget that it is over. -/
def loneBuilder : GlobalContextBuilder where
  config := {
    dynamicSearchThreshold := 1
    dynamicSearchKeepParent := false
    dynamicSearchMaxLevel := 3
    maxLevel_le := by decide
    mapPrompt := none
    reducePrompt := none
    knowledgePrompt := none
    completionModelId := "model"
    maxContextTokens := 1
    dataMaxTokens := 1
    mapMaxLength := 1
    reduceMaxLength := 1
    dynamicSearchNumRepeats := 1
    dynamicSearchUseSummary := false }
  entities := [⟨"e1", none, "ALICE", none, ["0"], ["t1", "t2"], none⟩]
  reports := [⟨"r0", "0", "0", "Cafe", "The cafe opens at six.", some ⟨0x4020000000000000⟩⟩]
  tokenizer := .ofMeasure String.length
  csv rows := .ok (String.join (rows.map delimitedRecord))
  pythonFloat x := toString x.bits.toNat

/-- Three reports, of which two are in the budget. -/
def threeBuilder : GlobalContextBuilder :=
  { loneBuilder with
    config := { loneBuilder.config with maxContextTokens := 200 }
    entities := [⟨"e1", none, "ALICE", none, ["0"], ["t1", "t2"], none⟩,
      ⟨"e2", none, "BOB", none, ["1"], ["t1"], none⟩]
    reports := [⟨"r0", "0", "0", "Cafe", "It opens at six.", some ⟨0x4020000000000000⟩⟩,
      ⟨"r1", "1", "1", "Dock", "Boats land here.", some ⟨0x4000000000000000⟩⟩,
      ⟨"r2", "2", "2", "Mill", "It grinds grain.", some ⟨0x4020000000000000⟩⟩] }

/-- However the three reports are shuffled, they are over the budget. -/
theorem not_fits_three {group : List WeightedReport}
    (h : group.Perm (threeBuilder.weightedReports threeBuilder.reports)) :
    ¬ threeBuilder.Fits group := by
  rintro (hone | hfits)
  · cases hone.symm.trans h.length_eq
  · have hsum := (h.map threeBuilder.rowTokens).sum_eq
    unfold groupTokens at hfits
    rw [hsum] at hfits
    exact absurd hfits (by decide +kernel)

theorem buildWithSeed_batches_sample :
    (∃ result : GlobalContextResult Unit,
      loneBuilder.buildWithSeed 86 1 loneBuilder.reports .none [] true = some (.ok result) ∧
      ∃ shuffled groups, shuffled.Perm (loneBuilder.weightedReports loneBuilder.reports) ∧
        loneBuilder.Cut true shuffled groups result.toBatchOutputs) ∧
    ∀ (fuel : ℕ) (result : GlobalContextResult Unit),
      threeBuilder.buildWithSeed 86 fuel threeBuilder.reports .none [] true = some (.ok result) →
        ∃ shuffled groups, shuffled.Perm (threeBuilder.weightedReports threeBuilder.reports) ∧
          threeBuilder.Cut true shuffled groups result.toBatchOutputs ∧ 1 < groups.length ∧
          ∀ group ∈ groups, SortedBatch group (sortBy compareReports group) := by
  constructor
  · have hrun : (loneBuilder.buildWithSeed 86 1 loneBuilder.reports .none
        ([] : List (DynamicRating Unit)) true).map (Except.map (·.batchReportIds)) =
          some (.ok [["r0"]]) := by
      decide +kernel
    obtain ⟨outcome, houtcome, hids⟩ := Option.map_eq_some_iff.mp hrun
    obtain ⟨result, rfl, -⟩ := map_eq_ok.mp hids
    obtain ⟨shuffled, groups, hperm, hcut, -⟩ :=
      (buildWithSeed_batches loneBuilder 86 1 loneBuilder.reports .none [] true).2.1 result houtcome
    exact ⟨result, houtcome, shuffled, groups, hperm, hcut⟩
  · intro fuel result h
    obtain ⟨shuffled, groups, hperm, hcut, hsorted⟩ :=
      (buildWithSeed_batches threeBuilder 86 fuel threeBuilder.reports .none [] true).2.1 result h
    refine ⟨shuffled, groups, hperm, hcut, ?_, hsorted⟩
    have hpartition := hcut.partition
    match groups, hcut.fits with
    | [], _ =>
      obtain rfl : [] = shuffled := hpartition
      cases hperm.length_eq
    | [group], hfits =>
      obtain rfl : group = shuffled := (List.append_nil group).symm.trans hpartition
      exact absurd (hfits group List.mem_cons_self) (not_fits_three hperm)
    | _ :: _ :: groups, _ => exact Nat.succ_lt_succ (Nat.succ_pos groups.length)

end GlobalContextBuilder

end GraphLoom.Query.Global
