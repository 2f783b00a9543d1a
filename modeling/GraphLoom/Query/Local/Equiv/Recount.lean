import GraphLoom.Query.Local.Equiv.Recording
import GraphLoom.Query.Local.Expansion

/-!
# The tokens of a local context with and without a session

A table has the longest prefix of its rows that fits, and its tokens are those of the header and of
each row (`fitDelimitedRows_longest`); with a session the sections of the reports and of the sources
are counted again by their text.  The tokens of a context are the sum of its sections in both cases
(`contextTokens_eq`), so they do not depend on the session when the tokens of these texts are those
of their headers and rows (`contextTokens_session_independent`).
-/

namespace GraphLoom.Query.Local

open Foundation Std Related

/-- A section as it is counted by its pieces, the header and each row for itself, and by its
text. -/
structure SectionCounts where
  pieces : ℕ
  text : ℕ
deriving DecidableEq, Repr

def SectionCounts.counted (counts : SectionCounts) (explainability : Bool) : ℕ :=
  if explainability then counts.text else counts.pieces

structure ContextCounts where
  conversation : ℕ
  reports : SectionCounts
  graph : ℕ
  sources : SectionCounts
deriving DecidableEq, Repr

def ContextCounts.total (counts : ContextCounts) (explainability : Bool) : ℕ :=
  min usizeMax (counts.conversation + counts.reports.counted explainability + counts.graph +
    counts.sources.counted explainability)

namespace LocalContextBuilder

variable (builder : LocalContextBuilder)

/-! ### Texts that count as their pieces -/

/-- The rows of the reports of the selected entities, best first. -/
def reportRows (selectedEntities : List Entity) : List (List String) :=
  (sortBy compareReports
    (builder.selectCommunityReports (communityMatches selectedEntities) false).selected).map
    fun report => [report.1.shortId, report.1.title, report.1.fullContent]

/-- The rows of the text units of the selected entities, best first. -/
def sourceRows (selectedEntities : List Entity) : List (List String) :=
  (builder.selectSourceTextUnits selectedEntities false).ranked.map
    fun source => [source.1.shortId, source.1.text]

/-- The section of the reports has the text `[]` when no report is in it. -/
def reportText (rows : List (List String)) : Except String String :=
  if rows = [] then .ok "[]"
  else (builder.ops.csv (reportTable.columns :: rows)).map (sectionTitle "Reports" ++ ·)

def sourceText (rows : List (List String)) : Except String String :=
  .ok (sectionTitle "Sources" ++
    (delimitedRecord ["id", "text"] ++ String.join (rows.map delimitedRecord)))

/-- The tokens of a section with as many rows as the budget allows. -/
def CutAt (budget : ℕ) (contextName : String) (columns : List String) (rows : List (List String))
    (textOf : List (List String) → Except String String) (counts : SectionCounts) : Prop :=
  ∃ count text, LongestPrefix (builder.RowsFit budget contextName columns rows) rows.length count ∧
    textOf (rows.take count) = .ok text ∧
    counts = ⟨builder.pieceTokens contextName ⟨columns, rows.take count⟩,
      builder.recounted text (builder.pieceTokens contextName ⟨columns, rows.take count⟩)⟩

/-- What the section of the reports counts with a budget. -/
def ReportSection (budget : ℕ) (selectedEntities : List Entity) (counts : SectionCounts) : Prop :=
  if selectedEntities = [] ∨ builder.reports = [] then counts = ⟨0, 0⟩
  else if builder.reportRows selectedEntities = [] then counts = ⟨0, builder.recounted "[]" 0⟩
  else builder.CutAt budget "Reports" reportTable.columns (builder.reportRows selectedEntities)
    builder.reportText counts

/-- What the section of the sources counts with a budget. -/
def SourceSection (budget : ℕ) (selectedEntities : List Entity) (counts : SectionCounts) : Prop :=
  if selectedEntities = [] ∨ builder.sourceRows selectedEntities = [] then counts = ⟨0, 0⟩
  else builder.CutAt budget "Sources" ["id", "text"] (builder.sourceRows selectedEntities)
    sourceText counts

/-- With these tokens left for the context, the tokenizer counts as many in the texts of the reports
and of the sources as in their headers and rows. -/
def AddsUp (remaining : ℕ) (selectedEntities : List Entity) : Prop :=
  ∀ reports sources,
    builder.ReportSection (builder.ops.proportion remaining builder.config.communityProp)
      selectedEntities reports →
    builder.SourceSection (builder.ops.proportion remaining builder.config.textUnitProp)
      selectedEntities sources →
    reports.text + sources.text = reports.pieces + sources.pieces

/-- With as many rows as are asked for or more, the tokenizer counts the text of a section as its
header and its rows. -/
def CountsRows (least : ℕ) (contextName : String) (columns : List String)
    (rows : List (List String)) (textOf : List (List String) → Except String String) : Prop :=
  ∀ count ≤ rows.length, least ≤ count → ∀ text, textOf (rows.take count) = .ok text →
    builder.recounted text (builder.pieceTokens contextName ⟨columns, rows.take count⟩) =
      builder.pieceTokens contextName ⟨columns, rows.take count⟩

/-- There are no reports, or the best one fits and the texts of the reports count as their rows. -/
def ReportsCountRows (budget : ℕ) (selectedEntities : List Entity) : Prop :=
  builder.reports = [] ∨ builder.reportRows selectedEntities ≠ [] ∧
    builder.RowsFit budget "Reports" reportTable.columns (builder.reportRows selectedEntities) 1 ∧
    builder.CountsRows 1 "Reports" reportTable.columns (builder.reportRows selectedEntities)
      builder.reportText

/-- The conversation leaves these of the tokens. -/
def Leaves (conversationHistory : Option ConversationHistory) (remaining : ℕ) : Prop :=
  ∃ assembly, builder.startAssembly conversationHistory false = .ok (assembly, remaining)

/-! ### The counts of a context -/

def reportCounts (selectedEntities : List Entity) (maxTokens : ℕ) :
    Except QueryError SectionCounts :=
  if selectedEntities = [] ∨ builder.reports = [] then .ok ⟨0, 0⟩
  else if builder.reportRows selectedEntities = [] then .ok ⟨0, builder.recounted "[]" 0⟩
  else do
    let fitted ← builder.fitReportRows reportTable (builder.reportRows selectedEntities) "Reports"
      maxTokens "build Local Reports context"
    let pieces := builder.pieceTokens "Reports" fitted.table
    if fitted.table.rows = [] then return ⟨pieces, builder.recounted "[]" pieces⟩
    else
      let text ← fitted.table.renderCsvSection builder.method "render Local Reports context"
        builder.ops.csv "Reports"
      return ⟨pieces, builder.recounted text pieces⟩

def sourceCounts (selectedEntities : List Entity) (maxTokens : ℕ) :
    Except QueryError SectionCounts :=
  if selectedEntities = [] ∨ builder.sourceRows selectedEntities = [] then .ok ⟨0, 0⟩
  else do
    let fitted ← builder.fitDelimitedRows ⟨["id", "text"], []⟩ (builder.sourceRows selectedEntities)
      "Sources" maxTokens "build Local Sources context"
    let text ← fitted.table.renderDelimitedSection builder.method "render Local Sources context"
      "Sources"
    let pieces := builder.pieceTokens "Sources" fitted.table
    return ⟨pieces, builder.recounted text pieces⟩

/-- The counts of the sections of a context, which has no session. -/
def contextCounts (selectedEntities : List Entity)
    (conversationHistory : Option ConversationHistory) : Except QueryError ContextCounts := do
  let (assembly, remaining) ← builder.startAssembly conversationHistory false
  let reports ← builder.reportCounts selectedEntities
    (builder.ops.proportion remaining builder.config.communityProp)
  let sections ← builder.buildLocalContextCapture selectedEntities
    (builder.ops.proportion remaining
      (builder.ops.localProportion builder.config.communityProp builder.config.textUnitProp)) false
  let sources ← builder.sourceCounts selectedEntities
    (builder.ops.proportion remaining builder.config.textUnitProp)
  return ⟨assembly.tokensUsed, reports, sections.tokensUsed, sources⟩

/-! ### The fitting of rows -/

theorem recounted_of_count {text operation : String} {tokens : ℕ}
    (h : builder.count text operation = .ok tokens) (pieces : ℕ) :
    builder.recounted text pieces = tokens := by
  have hcount : builder.ops.tokenizer.count text = .ok tokens := contextError_eq_ok.mp h
  rw [recounted, hcount]
  rfl

variable {method : SearchMethod} {table : ContextTable}

theorem renderDelimitedRow_eq_ok {operation text : String} {row : List String}
    (h : table.renderDelimitedRow method operation row = .ok text) :
    text = delimitedRecord row := by
  obtain ⟨_, -, htext⟩ := bind_eq_ok.mp h
  exact (Except.ok.inj htext).symm

theorem renderDelimitedHeader_eq_ok {operation contextName text : String}
    (h : table.renderDelimitedHeader method operation contextName = .ok text) :
    text = sectionTitle contextName ++ delimitedRecord table.columns := by
  obtain ⟨_, -, htext⟩ := bind_eq_ok.mp h
  exact (Except.ok.inj htext).symm

theorem fitRows_longest {maxTokens : ℕ} {operation : String} (rows : List (List String)) :
    ∀ {table fitted : ContextTable} {total tokens fixed : ℕ},
      builder.fitRows maxTokens operation table total rows = .ok (fitted, tokens) →
      total = min usizeMax
        (fixed + (table.rows.map fun row => builder.recounted (delimitedRecord row) 0).sum) →
      ∃ count, fitted = ⟨table.columns, table.rows ++ rows.take count⟩ ∧
        tokens = min usizeMax (fixed + ((table.rows ++ rows.take count).map
          fun row => builder.recounted (delimitedRecord row) 0).sum) ∧
        LongestPrefix (fun i => min usizeMax (fixed + ((table.rows ++ rows.take i).map
          fun row => builder.recounted (delimitedRecord row) 0).sum) ≤ maxTokens)
            rows.length count := by
  induction rows with
  | nil =>
    intro table fitted total tokens fixed h htotal
    obtain ⟨rfl, rfl⟩ := Prod.mk.inj (Except.ok.inj h)
    refine ⟨0, ?_, ?_, .nil⟩ <;> rw [List.take_nil, List.append_nil]
    exact htotal
  | cons row rows ih =>
    intro table fitted total tokens fixed h htotal
    obtain ⟨rowText, htext, h⟩ := bind_eq_ok.mp h
    obtain ⟨rowTokens, hcount, h⟩ := bind_eq_ok.mp h
    rw [renderDelimitedRow_eq_ok htext] at hcount
    have hrow : builder.recounted (delimitedRecord row) 0 = rowTokens :=
      builder.recounted_of_count hcount 0
    -- what the table has with the row
    have hnext : usizeAdd total rowTokens = min usizeMax (fixed + ((table.rows ++ [row]).map
        fun row => builder.recounted (delimitedRecord row) 0).sum) := by
      rw [List.map_append, List.sum_append, List.map_singleton, List.sum_singleton, hrow, usizeAdd,
        htotal]
      omega
    by_cases hover : maxTokens < usizeAdd total rowTokens
    · rw [if_pos hover] at h
      obtain ⟨rfl, rfl⟩ := Prod.mk.inj (Except.ok.inj h)
      refine ⟨0, ?_, ?_, .stop ?_⟩
      · rw [List.take_zero, List.append_nil]
      · rw [List.take_zero, List.append_nil]
        exact htotal
      · rw [List.take_succ_cons, List.take_zero, ← hnext]
        exact Nat.not_le_of_lt hover
    · rw [if_neg hover] at h
      obtain ⟨count, hfitted, htokens, hlongest⟩ := ih h hnext
      have hpush : ∀ i, (table.push row).rows ++ rows.take i =
          table.rows ++ (row :: rows).take (i + 1) := by
        intro i
        rw [List.take_succ_cons, ContextTable.push, List.append_assoc, List.singleton_append]
      rw [hpush] at hfitted htokens
      refine ⟨count + 1, hfitted, htokens, .step ?_ (hlongest.congr fun i => ?_)⟩
      · rw [List.take_succ_cons, List.take_zero, ← hnext]
        exact Nat.le_of_not_lt hover
      · rw [hpush]

/-- **A table has the longest prefix of its rows that fits**, with the tokens of its pieces. -/
theorem fitDelimitedRows_longest {columns : List String} {candidates : List (List String)}
    {contextName operation : String} {maxTokens : ℕ} {fitted : FittedTable}
    (h : builder.fitDelimitedRows ⟨columns, []⟩ candidates contextName maxTokens operation =
      .ok fitted) :
    fitted.table = ⟨columns, candidates.take fitted.selectedCount⟩ ∧
      fitted.candidateCount = candidates.length ∧
      fitted.tokensUsed = min usizeMax (builder.pieceTokens contextName fitted.table) ∧
      LongestPrefix (builder.RowsFit maxTokens contextName columns candidates) candidates.length
        fitted.selectedCount := by
  obtain ⟨header, hheader, h⟩ := bind_eq_ok.mp h
  obtain ⟨tokens, hcount, h⟩ := bind_eq_ok.mp h
  obtain ⟨⟨table, total⟩, hrows, h⟩ := bind_eq_ok.mp h
  obtain rfl := Except.ok.inj h
  have hle : tokens ≤ usizeMax := builder.count_le hcount
  rw [renderDelimitedHeader_eq_ok hheader] at hcount
  have hheaderTokens := builder.recounted_of_count hcount 0
  have hstart : tokens = min usizeMax (tokens + ((⟨columns, []⟩ : ContextTable).rows.map
      fun row => builder.recounted (delimitedRecord row) 0).sum) := by
    show tokens = min usizeMax (tokens + 0)
    omega
  obtain ⟨count, rfl, htotal, hlongest⟩ := builder.fitRows_longest candidates hrows hstart
  have hlength : (candidates.take count).length = count := by
    rw [List.length_take]
    exact Nat.min_eq_left hlongest.le
  dsimp only
  rw [List.nil_append, hlength]
  refine ⟨rfl, rfl, ?_, hlongest.congr fun i => ?_⟩
  · rw [pieceTokens, hheaderTokens]
    exact htotal
  · unfold RowsFit pieceTokens
    rw [hheaderTokens, List.nil_append]

/-! ### The sections -/

/-- What a section adds to the tokens of a context. -/
def sectionTokens (section? : Option ContextSection) : ℕ := (section?.map (·.tokensUsed)).getD 0

omit builder in
theorem recounted_min (builder : LocalContextBuilder) (text : String) (pieces : ℕ) :
    builder.recounted text (min usizeMax pieces) =
      min usizeMax (builder.recounted text pieces) := by
  rw [recounted, recounted]
  cases h : builder.ops.tokenizer.count text with
  | error message => rfl
  | ok tokens => exact (Nat.min_eq_right (builder.ops.tokenizer.count_le text tokens h)).symm

theorem countForExplainability_eq (text : String) (fallback : ℕ) :
    builder.countForExplainability text fallback = builder.recounted text fallback := by
  rw [countForExplainability, recounted]
  cases builder.ops.tokenizer.count text with
  | error message => rfl
  | ok tokens => rfl

theorem emptyCommunityTokens_eq (explainability : Bool) (pieces : ℕ) :
    (builder.emptyCommunityTokens explainability).getD pieces =
      if explainability then builder.recounted "[]" pieces else pieces := by
  cases explainability with
  | false => rfl
  | true => rfl

theorem emptyCommunitySection_tokens (maxTokens : ℕ)
    (candidates : Option (List ExplainabilityCandidate)) (explainability : Bool) :
    sectionTokens (some (emptyCommunitySection maxTokens candidates
      (builder.emptyCommunityTokens explainability))) =
      min usizeMax ((⟨0, builder.recounted "[]" 0⟩ : SectionCounts).counted explainability) := by
  show (builder.emptyCommunityTokens explainability).getD 0 = _
  rw [emptyCommunityTokens_eq]
  cases explainability with
  | false => rfl
  | true => exact builder.recounted_min "[]" 0

/-- The selected reports do not depend on the session. -/
theorem selectCommunityReports_eq (selectedEntities : List Entity) (explainability : Bool) :
    (builder.selectCommunityReports (communityMatches selectedEntities) explainability).selected =
      (builder.selectCommunityReports (communityMatches selectedEntities) false).selected := by
  cases explainability with
  | false => rfl
  | true => exact builder.selectCommunityReports_selected _

theorem reportRows_eq_nil_iff {selectedEntities : List Entity} :
    builder.reportRows selectedEntities = [] ↔
      (builder.selectCommunityReports (communityMatches selectedEntities) false).selected = [] := by
  rw [reportRows, List.map_eq_nil_iff, ← List.length_eq_zero_iff, length_sortBy,
    List.length_eq_zero_iff]

theorem buildCommunityContextCapture_tokens (selectedEntities : List Entity) (maxTokens : ℕ)
    (explainability : Bool) :
    Related (fun section? counts =>
        sectionTokens section? = min usizeMax (SectionCounts.counted counts explainability))
      (builder.buildCommunityContextCapture selectedEntities maxTokens explainability)
      (builder.reportCounts selectedEntities maxTokens) := by
  unfold buildCommunityContextCapture reportCounts
  by_cases hnone : selectedEntities = [] ∨ builder.reports = []
  · rw [if_pos hnone, if_pos hnone]
    refine ok ?_
    cases explainability with
    | false => rfl
    | true => rfl
  rw [if_neg hnone, if_neg hnone]
  dsimp only
  by_cases hmatches : communityMatches selectedEntities = []
  · -- no match is no selected report
    have hrows : builder.reportRows selectedEntities = [] := by
      rw [reportRows_eq_nil_iff, hmatches]
      rfl
    rw [if_pos hmatches, if_pos hrows]
    exact ok (builder.emptyCommunitySection_tokens maxTokens _ explainability)
  rw [if_neg hmatches, builder.selectCommunityReports_eq selectedEntities explainability]
  by_cases hselected : builder.reportRows selectedEntities = []
  · rw [if_pos hselected, if_pos (builder.reportRows_eq_nil_iff.mp hselected)]
    exact ok (builder.emptyCommunitySection_tokens maxTokens _ explainability)
  rw [if_neg hselected, if_neg fun h => hselected (builder.reportRows_eq_nil_iff.mpr h)]
  refine bind_same fun fitted hfitted => ?_
  have htokens := (builder.fitDelimitedRows_longest hfitted).2.2.1
  by_cases hempty : fitted.table.rows = []
  · rw [if_pos hempty, if_pos hempty]
    refine ok ?_
    show (builder.emptyCommunityTokens explainability).getD fitted.tokensUsed = _
    rw [emptyCommunityTokens_eq, htokens]
    cases explainability with
    | false => rfl
    | true => exact builder.recounted_min "[]" _
  · rw [if_neg hempty, if_neg hempty]
    refine bind_same fun text _ => ?_
    refine ok ?_
    cases explainability with
    | false => exact htokens
    | true =>
      show builder.countForExplainability text fitted.tokensUsed = _
      rw [countForExplainability_eq, htokens]
      exact builder.recounted_min text _

/-- The text units do not depend on the session. -/
theorem selectSourceTextUnits_ranked_eq (selectedEntities : List Entity) (explainability : Bool) :
    (builder.selectSourceTextUnits selectedEntities explainability).ranked =
      (builder.selectSourceTextUnits selectedEntities false).ranked := by
  cases explainability with
  | false => rfl
  | true => exact (builder.selectSourceTextUnits_ranked selectedEntities).1

theorem buildSourceContextCapture_tokens (selectedEntities : List Entity) (maxTokens : ℕ)
    (explainability : Bool) :
    Related (fun section? counts =>
        sectionTokens section? = min usizeMax (SectionCounts.counted counts explainability))
      (builder.buildSourceContextCapture selectedEntities maxTokens explainability)
      (builder.sourceCounts selectedEntities maxTokens) := by
  have hzero : 0 = min usizeMax ((⟨0, 0⟩ : SectionCounts).counted explainability) := by
    cases explainability with
    | false => rfl
    | true => rfl
  unfold buildSourceContextCapture sourceCounts
  dsimp only
  rw [builder.selectSourceTextUnits_ranked_eq selectedEntities explainability]
  have hnil : (builder.selectSourceTextUnits selectedEntities false).ranked = [] ↔
      builder.sourceRows selectedEntities = [] := List.map_eq_nil_iff.symm
  by_cases hentities : selectedEntities = []
  · rw [if_pos hentities, if_pos (Or.inl hentities)]
    exact ok hzero
  by_cases hrows : builder.sourceRows selectedEntities = []
  · rw [if_neg hentities, if_pos (hnil.mpr hrows), if_pos (Or.inr hrows)]
    refine ok (Eq.trans ?_ hzero)
    -- a section that only records what is missing has no tokens
    rw [sectionTokens]
    cases (builder.selectSourceTextUnits selectedEntities explainability).missing.filter
        fun candidates => !candidates.isEmpty with
    | none => rfl
    | some candidates => rfl
  rw [if_neg hentities, if_neg fun h => hrows (hnil.mp h),
    if_neg (not_or.mpr ⟨hentities, hrows⟩)]
  refine bind_same fun fitted hfitted => ?_
  have htokens := (builder.fitDelimitedRows_longest hfitted).2.2.1
  refine bind_same fun text _ => ?_
  refine ok ?_
  cases explainability with
  | false => exact htokens
  | true =>
    show builder.countForExplainability text fitted.tokensUsed = _
    rw [countForExplainability_eq, htokens]
    exact builder.recounted_min text _

/-! ### The context -/

theorem usizeAdd_le (a b : ℕ) : usizeAdd a b ≤ usizeMax := Nat.min_le_left _ _

theorem startAssembly_tokens (conversationHistory : Option ConversationHistory)
    (explainability : Bool) :
    Related (fun a b => a.1.tokensUsed = b.1.tokensUsed ∧ a.2 = b.2 ∧ b.1.tokensUsed ≤ usizeMax)
      (builder.startAssembly conversationHistory explainability)
      (builder.startAssembly conversationHistory false) := by
  unfold startAssembly
  cases conversationHistory with
  | none => exact ok ⟨rfl, rfl, Nat.zero_le _⟩
  | some history =>
    dsimp only
    refine (builder.buildConversationHistoryCapture_recording history
      builder.config.maxContextTokens explainability).bind fun first second hsame => ?_
    cases first with
    | none =>
      cases second with
      | none => exact ok ⟨rfl, rfl, Nat.zero_le _⟩
      | some _ => exact hsame.elim
    | some first =>
      cases second with
      | none => exact hsame.elim
      | some second =>
        obtain ⟨-, -, htokens⟩ := hsame
        refine ok ⟨?_, ?_, usizeAdd_le _ _⟩
        · show usizeAdd 0 first.tokensUsed = usizeAdd 0 second.tokensUsed
          rw [htokens]
        · show builder.config.maxContextTokens - first.tokensUsed =
            builder.config.maxContextTokens - second.tokensUsed
          rw [htokens]

omit builder in
theorem addCommunity_tokensUsed {assembly : ContextAssembly} (section? : Option ContextSection)
    (hle : assembly.tokensUsed ≤ usizeMax) :
    (addCommunity assembly section?).tokensUsed =
      usizeAdd assembly.tokensUsed (sectionTokens section?) := by
  cases section? with
  | none => exact (Nat.min_eq_right hle).symm
  | some contextSection => rfl

omit builder in
theorem addSources_tokensUsed {assembly : ContextAssembly} (section? : Option ContextSection)
    (hle : assembly.tokensUsed ≤ usizeMax) :
    (addSources assembly section?).tokensUsed =
      usizeAdd assembly.tokensUsed (sectionTokens section?) := by
  cases section? with
  | none => exact (Nat.min_eq_right hle).symm
  | some contextSection => rfl

theorem buildLocalContextCapture_tokens (selectedEntities : List Entity) (maxTokens : ℕ)
    (explainability : Bool) :
    Related (fun a b : LocalSections => a.tokensUsed = b.tokensUsed)
      (builder.buildLocalContextCapture selectedEntities maxTokens explainability)
      (builder.buildLocalContextCapture selectedEntities maxTokens false) := by
  cases explainability with
  | false => exact (refl (fun _ => rfl) _).mono fun _ _ h => congrArg _ h
  | true =>
    exact (builder.buildLocalContextCapture_recording selectedEntities maxTokens).mono
      fun _ _ h => h.2.2

/-- Both builds add up the counts of the sections. -/
theorem buildContextSections_tokensUsed (selectedEntities : List Entity)
    (conversationHistory : Option ConversationHistory) (explainability : Bool) :
    Related (fun assembly counts => assembly.tokensUsed = ContextCounts.total counts explainability)
      (builder.buildContextSections selectedEntities conversationHistory explainability)
      (builder.contextCounts selectedEntities conversationHistory) := by
  refine (builder.startAssembly_tokens conversationHistory explainability).bind
    fun first second hstart => ?_
  obtain ⟨htokens, hremaining, hle⟩ := hstart
  dsimp only
  rw [hremaining]
  refine (builder.buildCommunityContextCapture_tokens selectedEntities _ explainability).bind
    fun community reports hreports => ?_
  refine (builder.buildLocalContextCapture_tokens selectedEntities _ explainability).bind
    fun sections sections' hgraph => ?_
  refine (builder.buildSourceContextCapture_tokens selectedEntities _ explainability).bind
    fun source sources hsources => ?_
  refine ok ?_
  have hcommunity : (addCommunity first.1 community).tokensUsed =
      usizeAdd second.1.tokensUsed (min usizeMax (reports.counted explainability)) := by
    rw [addCommunity_tokensUsed community (htokens ▸ hle), htokens, hreports]
  have hlocal : (addLocal (addCommunity first.1 community) sections).tokensUsed =
      usizeAdd (addCommunity first.1 community).tokensUsed sections'.tokensUsed :=
    congrArg (usizeAdd _) hgraph
  have hlocalLe : (addLocal (addCommunity first.1 community) sections).tokensUsed ≤ usizeMax :=
    usizeAdd_le _ _
  rw [addSources_tokensUsed source hlocalLe, hsources, hlocal, hcommunity, ContextCounts.total]
  dsimp only [usizeAdd]
  omega

theorem contextTokens_eq (selectedEntities : List Entity)
    (conversationHistory : Option ConversationHistory) (explainability : Bool) :
    builder.contextTokens selectedEntities conversationHistory explainability =
      (builder.contextCounts selectedEntities conversationHistory).map
        (ContextCounts.total · explainability) := by
  have h : (builder.buildContextSections selectedEntities conversationHistory
      explainability).map ContextAssembly.tokensUsed =
        (builder.contextCounts selectedEntities conversationHistory).map
          (ContextCounts.total · explainability) :=
    (builder.buildContextSections_tokensUsed selectedEntities conversationHistory
      explainability).map fun _ _ h => h
  rw [← h, contextTokens]
  cases builder.buildContextSections selectedEntities conversationHistory explainability with
  | error e => rfl
  | ok assembly => rfl

/-! ### Where a budget cuts -/

omit builder in
theorem renderCsvSection_eq_ok {operation : String} {csv : CsvWriter} {contextName text : String}
    (h : table.renderCsvSection method operation csv contextName = .ok text) :
    (csv (table.columns :: table.rows)).map (sectionTitle contextName ++ ·) = .ok text := by
  obtain ⟨rendered, hcsv, htext⟩ := bind_eq_ok.mp h
  obtain ⟨_, -, hcsv⟩ := bind_eq_ok.mp hcsv
  rw [contextError_eq_ok.mp hcsv]
  exact congrArg Except.ok (Except.ok.inj htext)

omit builder in
theorem renderDelimitedSection_eq_ok {operation contextName text : String}
    (h : table.renderDelimitedSection method operation contextName = .ok text) :
    text = sectionTitle contextName ++
      (delimitedRecord table.columns ++ String.join (table.rows.map delimitedRecord)) := by
  obtain ⟨rendered, hrendered, htext⟩ := bind_eq_ok.mp h
  obtain ⟨_, -, hrendered⟩ := bind_eq_ok.mp hrendered
  rw [← Except.ok.inj htext, ← Except.ok.inj hrendered]

section Cuts

variable {contextName operation : String} {columns : List String} {rows : List (List String)}
  {textOf : List (List String) → Except String String} {budget : ℕ}
  {counts counts' : SectionCounts} {selectedEntities : List Entity}

theorem cutAt_of_fitted {fitted : FittedTable} {text : String}
    (h : builder.fitDelimitedRows ⟨columns, []⟩ rows contextName budget operation = .ok fitted)
    (htext : textOf fitted.table.rows = .ok text) :
    builder.CutAt budget contextName columns rows textOf
      ⟨builder.pieceTokens contextName fitted.table,
        builder.recounted text (builder.pieceTokens contextName fitted.table)⟩ := by
  obtain ⟨htable, -, -, hlongest⟩ := builder.fitDelimitedRows_longest h
  rw [htable] at htext ⊢
  exact ⟨fitted.selectedCount, text, hlongest, htext, rfl⟩

variable {builder}

theorem CutAt.unique (h : builder.CutAt budget contextName columns rows textOf counts)
    (h' : builder.CutAt budget contextName columns rows textOf counts') : counts = counts' := by
  obtain ⟨count, text, hlongest, htext, rfl⟩ := h
  obtain ⟨count', text', hlongest', htext', rfl⟩ := h'
  obtain rfl := hlongest.unique hlongest'
  obtain rfl := Except.ok.inj (htext.symm.trans htext')
  rfl

theorem ReportSection.unique (h : builder.ReportSection budget selectedEntities counts)
    (h' : builder.ReportSection budget selectedEntities counts') : counts = counts' := by
  unfold ReportSection at h h'
  split_ifs at h h' with hnone hrows
  · exact h.trans h'.symm
  · exact h.trans h'.symm
  · exact CutAt.unique h h'

theorem SourceSection.unique (h : builder.SourceSection budget selectedEntities counts)
    (h' : builder.SourceSection budget selectedEntities counts') : counts = counts' := by
  unfold SourceSection at h h'
  split_ifs at h h' with hnone
  · exact h.trans h'.symm
  · exact CutAt.unique h h'

theorem reportSection_of_reportCounts
    (h : builder.reportCounts selectedEntities budget = .ok counts) :
    builder.ReportSection budget selectedEntities counts := by
  unfold reportCounts at h
  unfold ReportSection
  split_ifs at h ⊢ with hnone hrows
  · exact (Except.ok.inj h).symm
  · exact (Except.ok.inj h).symm
  obtain ⟨fitted, hfitted, h⟩ := bind_eq_ok.mp h
  by_cases hempty : fitted.table.rows = []
  · rw [if_pos hempty] at h
    rw [← Except.ok.inj h]
    exact builder.cutAt_of_fitted hfitted (if_pos hempty)
  · rw [if_neg hempty] at h
    obtain ⟨text, htext, h⟩ := bind_eq_ok.mp h
    rw [← Except.ok.inj h]
    have hcsv := renderCsvSection_eq_ok htext
    rw [(builder.fitDelimitedRows_longest hfitted).1] at hcsv
    refine builder.cutAt_of_fitted hfitted ((if_neg hempty).trans ?_)
    rw [(builder.fitDelimitedRows_longest hfitted).1]
    exact hcsv

theorem sourceSection_of_sourceCounts
    (h : builder.sourceCounts selectedEntities budget = .ok counts) :
    builder.SourceSection budget selectedEntities counts := by
  unfold sourceCounts at h
  unfold SourceSection
  split_ifs at h ⊢ with hnone
  · exact (Except.ok.inj h).symm
  obtain ⟨fitted, hfitted, h⟩ := bind_eq_ok.mp h
  obtain ⟨text, htext, h⟩ := bind_eq_ok.mp h
  rw [← Except.ok.inj h]
  have hrendered := renderDelimitedSection_eq_ok htext
  refine builder.cutAt_of_fitted hfitted ?_
  rw [hrendered, (builder.fitDelimitedRows_longest hfitted).1]
  rfl

end Cuts

variable {conversationHistory : Option ConversationHistory}

/-- The budgets of the sections are what they can take of the tokens that are left. -/
theorem contextCounts_eq_ok {selectedEntities : List Entity} {counts : ContextCounts}
    (h : builder.contextCounts selectedEntities conversationHistory = .ok counts) :
    ∃ remaining, builder.Leaves conversationHistory remaining ∧
      builder.ReportSection (builder.ops.proportion remaining builder.config.communityProp)
        selectedEntities counts.reports ∧
      builder.SourceSection (builder.ops.proportion remaining builder.config.textUnitProp)
        selectedEntities counts.sources := by
  obtain ⟨⟨assembly, remaining⟩, hstart, h⟩ := bind_eq_ok.mp h
  obtain ⟨reports, hreports, h⟩ := bind_eq_ok.mp h
  obtain ⟨sections, -, h⟩ := bind_eq_ok.mp h
  obtain ⟨sources, hsources, h⟩ := bind_eq_ok.mp h
  rw [← Except.ok.inj h]
  exact ⟨remaining, ⟨assembly, hstart⟩, reportSection_of_reportCounts hreports,
    sourceSection_of_sourceCounts hsources⟩

theorem Leaves.le {remaining : ℕ} (h : builder.Leaves conversationHistory remaining) :
    remaining ≤ builder.config.maxContextTokens := by
  obtain ⟨assembly, h⟩ := h
  unfold startAssembly at h
  cases conversationHistory with
  | none => exact Nat.le_of_eq (Prod.mk.inj (Except.ok.inj h)).2.symm
  | some history =>
    obtain ⟨section?, -, h⟩ := bind_eq_ok.mp h
    cases section? with
    | none => exact Nat.le_of_eq (Prod.mk.inj (Except.ok.inj h)).2.symm
    | some contextSection =>
      rw [← (Prod.mk.inj (Except.ok.inj h)).2]
      exact Nat.sub_le _ _

theorem Leaves.unique {remaining remaining' : ℕ} (h : builder.Leaves conversationHistory remaining)
    (h' : builder.Leaves conversationHistory remaining') : remaining = remaining' := by
  obtain ⟨assembly, h⟩ := h
  obtain ⟨assembly', h'⟩ := h'
  exact (Prod.mk.inj (Except.ok.inj (h.symm.trans h'))).2

variable {builder}

/-- Sections that count as their rows add up, wherever the budget cuts. -/
theorem addsUp_of_countsRows {selectedEntities : List Entity} {remaining : ℕ}
    (hreports : builder.ReportsCountRows
      (builder.ops.proportion remaining builder.config.communityProp) selectedEntities)
    (hsources : builder.CountsRows 0 "Sources" ["id", "text"] (builder.sourceRows selectedEntities)
      sourceText) : builder.AddsUp remaining selectedEntities := by
  intro reports sources hreport hsource
  have hreport : reports.text = reports.pieces := by
    unfold ReportSection at hreport
    split_ifs at hreport with hnone hrows
    · rw [hreport]
    · exact absurd hrows (hreports.resolve_left fun h => hnone (Or.inr h)).1
    · obtain ⟨-, hfits, hcounts⟩ := hreports.resolve_left fun h => hnone (Or.inr h)
      obtain ⟨count, text, hlongest, htext, rfl⟩ := hreport
      refine hcounts count hlongest.le (Nat.pos_of_ne_zero ?_) text htext
      rintro rfl
      exact hlongest.stops (List.length_pos_iff.mpr hrows) hfits
  have hsource : sources.text = sources.pieces := by
    unfold SourceSection at hsource
    split_ifs at hsource with hnone
    · rw [hsource]
    · obtain ⟨count, text, hlongest, htext, rfl⟩ := hsource
      exact hsources count hlongest.le (Nat.zero_le _) text htext
  rw [hreport, hsource]

/-- Sections that add up are counted alike. -/
theorem contextTokens_of_addsUp {selectedEntities : List Entity}
    (h : ∀ remaining, builder.Leaves conversationHistory remaining →
      builder.AddsUp remaining selectedEntities) :
    builder.contextTokens selectedEntities conversationHistory true =
      builder.contextTokens selectedEntities conversationHistory false := by
  rw [contextTokens_eq, contextTokens_eq]
  cases hcounts : builder.contextCounts selectedEntities conversationHistory with
  | error e => rfl
  | ok counts =>
    obtain ⟨remaining, hleaves, hreports, hsources⟩ := builder.contextCounts_eq_ok hcounts
    have hsum := h remaining hleaves _ _ hreports hsources
    refine congrArg Except.ok ?_
    show ContextCounts.total counts true = ContextCounts.total counts false
    unfold ContextCounts.total SectionCounts.counted
    rw [if_pos rfl, if_pos rfl, if_neg Bool.false_ne_true, if_neg Bool.false_ne_true]
    omega

variable (builder)

/-- Sections that are counted alike add up, below the largest count. -/
theorem addsUp_of_contextTokens {selectedEntities : List Entity} {remaining tokens : ℕ}
    (hleaves : builder.Leaves conversationHistory remaining) (hlt : tokens < usizeMax)
    (htext : builder.contextTokens selectedEntities conversationHistory true = .ok tokens)
    (hpieces : builder.contextTokens selectedEntities conversationHistory false = .ok tokens) :
    builder.AddsUp remaining selectedEntities := by
  rw [contextTokens_eq] at htext hpieces
  obtain ⟨counts, hcounts, htext⟩ := map_eq_ok.mp htext
  rw [hcounts] at hpieces
  replace hpieces : ContextCounts.total counts false = tokens := Except.ok.inj hpieces
  obtain ⟨_, hleft, hreports, hsources⟩ := builder.contextCounts_eq_ok hcounts
  obtain rfl := hleaves.unique _ hleft
  intro reports sources hreports' hsources'
  rw [hreports'.unique hreports, hsources'.unique hsources]
  unfold ContextCounts.total SectionCounts.counted at htext hpieces
  rw [if_pos rfl, if_pos rfl] at htext
  rw [if_neg Bool.false_ne_true, if_neg Bool.false_ne_true] at hpieces
  omega

/-- **The tokens of a context depend on the session only where a text is not counted as its
pieces**: not when, with all that a conversation can leave of the tokens, the reports and the
sources add up; and they add up with what it leaves when both builds count the same.  They add up
where the tokenizer counts the texts as their rows and the best report fits. -/
theorem contextTokens_session_independent (selectedEntities : List Entity) :
    ((∀ remaining ≤ builder.config.maxContextTokens, builder.AddsUp remaining selectedEntities) →
      ∀ conversationHistory, builder.contextTokens selectedEntities conversationHistory true =
        builder.contextTokens selectedEntities conversationHistory false) ∧
    (∀ conversationHistory remaining, builder.Leaves conversationHistory remaining →
      (builder.AddsUp remaining selectedEntities →
        builder.contextTokens selectedEntities conversationHistory true =
          builder.contextTokens selectedEntities conversationHistory false) ∧
      ∀ tokens < usizeMax,
        builder.contextTokens selectedEntities conversationHistory true = .ok tokens →
        builder.contextTokens selectedEntities conversationHistory false = .ok tokens →
          builder.AddsUp remaining selectedEntities) ∧
    ∀ remaining, builder.ReportsCountRows
        (builder.ops.proportion remaining builder.config.communityProp) selectedEntities →
      builder.CountsRows 0 "Sources" ["id", "text"] (builder.sourceRows selectedEntities)
        sourceText → builder.AddsUp remaining selectedEntities := by
  refine ⟨fun h conversationHistory => contextTokens_of_addsUp fun remaining hleaves =>
    h remaining (hleaves.le _), fun conversationHistory remaining hleaves => ⟨fun h => ?_, ?_⟩,
    fun _ => addsUp_of_countsRows⟩
  · refine contextTokens_of_addsUp fun remaining' hleaves' => ?_
    rwa [hleaves'.unique _ hleaves]
  · intro tokens hlt htext hpieces
    exact builder.addsUp_of_contextTokens hleaves hlt htext hpieces

end LocalContextBuilder

/-- A token for each byte, and nothing has to be quoted in CSV. -/
def bytesOps : Operations where
  tokenizer := .ofMeasure String.utf8ByteSize
  csv records := .ok (String.join (records.map delimitedRecord))
  proportion total _ := total / 4
  localProportion _ _ := ⟨0⟩
  pythonF64 _ := "1.0"
  toLowercase := id

/-- An entity in one community and two text units. -/
def harbourBuilder (reports : List CommunityReport) : LocalContextBuilder where
  method := .local
  config := ⟨⟨0⟩, ⟨0⟩, 5, 10, 10, 8000⟩
  entities := [⟨"e1", none, "ALICE", none, ["7"], ["t1", "t2"], none⟩]
  reports := reports
  textUnits := [⟨"t1", "1", "Alice sails.", []⟩, ⟨"t2", "2", "Alice is at the dock.", []⟩]
  relationships := []
  covariates := []
  index := QueryDataIndex.new [⟨"e1", none, "ALICE", none, ["7"], ["t1", "t2"], none⟩] reports
    [⟨"t1", "1", "Alice sails.", []⟩, ⟨"t2", "2", "Alice is at the dock.", []⟩] [] []
  ops := bytesOps

/-- The report of the community, which is ranked. -/
def harbourReport : CommunityReport := ⟨"r1", "1", "7", "Harbour", "Boats.", some ⟨0⟩⟩

theorem sourceRows_harbour {reports : List CommunityReport}
    (h : reports = [] ∨ reports = [harbourReport]) :
    (harbourBuilder reports).sourceRows (harbourBuilder reports).entities =
      [["1", "Alice sails."], ["2", "Alice is at the dock."]] := by
  simp only [LocalContextBuilder.sourceRows, LocalContextBuilder.selectSourceTextUnits, sortBy]
  rw [List.mergeSort_of_pairwise (by obtain rfl | rfl := h <;> decide +kernel)]
  obtain rfl | rfl := h <;> decide +kernel

theorem countsRows_harbour {reports : List CommunityReport}
    (h : reports = [] ∨ reports = [harbourReport]) :
    (harbourBuilder reports).CountsRows 0 "Sources" ["id", "text"]
      ((harbourBuilder reports).sourceRows (harbourBuilder reports).entities)
      LocalContextBuilder.sourceText := by
  rw [sourceRows_harbour h]
  intro count (hle : count ≤ 2) _ text htext
  obtain rfl := Except.ok.inj htext
  obtain rfl | rfl | rfl : count = 0 ∨ count = 1 ∨ count = 2 := by omega
  all_goals obtain rfl | rfl := h <;> decide +kernel

/-- With all of its tokens the report is in the context. -/
theorem reportsCountRows_harbour : (harbourBuilder [harbourReport]).ReportsCountRows 2000
    (harbourBuilder [harbourReport]).entities := by
  have hrows : (harbourBuilder [harbourReport]).reportRows
      (harbourBuilder [harbourReport]).entities = [["1", "Harbour", "Boats."]] := by
    rw [LocalContextBuilder.reportRows, sortBy_eq_self (by decide +kernel)]
    decide +kernel
  rw [LocalContextBuilder.ReportsCountRows, hrows]
  refine Or.inr ⟨List.cons_ne_nil _ _, by unfold LocalContextBuilder.RowsFit; decide +kernel, ?_⟩
  intro count hle hpos text htext
  obtain rfl : count = 1 := Nat.le_antisymm hle hpos
  obtain rfl := Except.ok.inj htext
  decide +kernel

theorem contextTokens_session_independent_sample :
    (∀ conversationHistory,
      (harbourBuilder []).contextTokens (harbourBuilder []).entities conversationHistory true =
        (harbourBuilder []).contextTokens (harbourBuilder []).entities conversationHistory false) ∧
    (harbourBuilder [harbourReport]).contextTokens (harbourBuilder [harbourReport]).entities none
        true =
      (harbourBuilder [harbourReport]).contextTokens (harbourBuilder [harbourReport]).entities none
        false := by
  obtain ⟨hempty, -, hrows⟩ := (harbourBuilder []).contextTokens_session_independent
    (harbourBuilder []).entities
  obtain ⟨-, hreport, hrows'⟩ := (harbourBuilder [harbourReport]).contextTokens_session_independent
    (harbourBuilder [harbourReport]).entities
  exact ⟨hempty fun remaining _ => hrows remaining (Or.inl rfl) (countsRows_harbour (Or.inl rfl)),
    (hreport none 8000 ⟨_, rfl⟩).1
      (hrows' 8000 reportsCountRows_harbour (countsRows_harbour (Or.inr rfl)))⟩

/-- An entity that is in no community, and a report of another one. -/
def unreportedBuilder : LocalContextBuilder :=
  { harbourBuilder [⟨"r1", "1", "7", "Harbour", "Boats.", none⟩] with
    entities := [⟨"e1", none, "ALICE", none, [], [], none⟩]
    textUnits := []
    index := QueryDataIndex.new [⟨"e1", none, "ALICE", none, [], [], none⟩]
      [⟨"r1", "1", "7", "Harbour", "Boats.", none⟩] [] [] [] }

theorem contextTokens_unreported :
    unreportedBuilder.contextTokens unreportedBuilder.entities none true ≠
      unreportedBuilder.contextTokens unreportedBuilder.entities none false := by
  decide +kernel

end GraphLoom.Query.Local
