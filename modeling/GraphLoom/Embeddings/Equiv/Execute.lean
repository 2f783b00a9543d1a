import GraphLoom.Embeddings.Equiv.Vectors
import GraphLoom.Foundation.TryBuffered
import Mathlib.Data.List.SplitLengths

/-!
## The batches of snippets

The batches concatenate to the snippets, are numbered in order and keep to the limits.  All of it is
kept by each snippet that is added (`BatchState.Holds.addSnippet`).
-/

namespace GraphLoom.Embeddings

/-! ### Batches -/

/-- The tokens of snippets, counted in a `usize`. -/
def tokenCount (snippets : List Snippet) : ℕ :=
  min usizeMax (snippets.map Snippet.tokenCount).sum

/-- What the limits allow to send in one call. -/
structure FitsCall (config : EmbeddingOperationConfig) (snippets : List Snippet) : Prop where
  nonempty : snippets ≠ []
  size : snippets.length ≤ config.batchSize
  tokens : tokenCount snippets ≤ config.batchMaxTokens ∨ snippets.length = 1

theorem tokenCount_append (snippets : List Snippet) (snippet : Snippet) :
    tokenCount (snippets ++ [snippet]) = usizeAdd (tokenCount snippets) snippet.tokenCount := by
  simp only [tokenCount, usizeAdd, List.map_append, List.sum_append, List.map_cons, List.map_nil,
    List.sum_singleton]
  omega

/-- What holds of the batches when the snippets `done` are in them. -/
structure BatchState.Holds (config : EmbeddingOperationConfig) (done : List Snippet)
    (s : BatchState) : Prop where
  flatten : s.batches.flatMap ApiBatch.snippets ++ s.current = done
  index : s.batches.map ApiBatch.index = List.range s.batches.length
  fits : ∀ batch ∈ s.batches, FitsCall config batch.snippets
  current : s.current ≠ [] → FitsCall config s.current
  currentTokens : s.currentTokens = tokenCount s.current

variable {config : EmbeddingOperationConfig} {done : List Snippet} {state : BatchState}

/-- A batch that fits is completed. -/
theorem BatchState.Holds.flush (h : state.Holds config done) (hcurrent : state.current ≠ []) :
    state.flush.Holds config done where
  flatten := by
    show (state.batches ++ [_]).flatMap ApiBatch.snippets ++ [] = done
    rw [List.flatMap_append, List.append_nil]
    simpa using h.flatten
  index := by
    show (state.batches ++ [_]).map ApiBatch.index = List.range (state.batches ++ [_]).length
    rw [List.map_append, h.index, List.length_append, List.length_singleton, List.range_succ]
    rfl
  fits batch hbatch := by
    rcases List.mem_append.mp hbatch with hbatch | hbatch
    · exact h.fits batch hbatch
    · obtain rfl := List.mem_singleton.mp hbatch
      exact h.current hcurrent
  current h := absurd rfl h
  currentTokens := by
    show 0 = tokenCount []
    rfl

/-- A snippet joins the current batch when that does not exceed a limit. -/
theorem BatchState.Holds.push {snippet : Snippet} (h : state.Holds config done)
    (hsize : state.current.length < config.batchSize)
    (htokens : state.current ≠ [] →
      usizeAdd state.currentTokens snippet.tokenCount ≤ config.batchMaxTokens) :
    (state.push snippet).Holds config (done ++ [snippet]) where
  flatten := by
    show state.batches.flatMap ApiBatch.snippets ++ (state.current ++ [snippet]) = _
    rw [← List.append_assoc, h.flatten]
  index := h.index
  fits := h.fits
  current _ := by
    constructor
    · show state.current ++ [snippet] ≠ []
      simp
    · show (state.current ++ [snippet]).length ≤ _
      rw [List.length_append, List.length_singleton]
      omega
    · show tokenCount (state.current ++ [snippet]) ≤ _ ∨ (state.current ++ [snippet]).length = 1
      by_cases hcurrent : state.current = []
      · right
        rw [hcurrent]
        rfl
      · left
        rw [tokenCount_append, ← h.currentTokens]
        exact htokens hcurrent
  currentTokens := by
    show usizeAdd state.currentTokens snippet.tokenCount = tokenCount (state.current ++ [snippet])
    rw [tokenCount_append, h.currentTokens]

theorem BatchState.Holds.addSnippet {snippet : Snippet} (hsize : 0 < config.batchSize)
    (h : state.Holds config done) :
    (addSnippet config state snippet).Holds config (done ++ [snippet]) := by
  unfold Embeddings.addSnippet
  split
  · rename_i hexceed
    have hcurrent : state.current ≠ [] := by
      intro hnil
      simp [BatchState.wouldExceed, hnil] at hexceed
      omega
    exact (h.flush hcurrent).push hsize fun hne => absurd rfl hne
  · rename_i hexceed
    simp only [BatchState.wouldExceed, Bool.decide_or, Bool.decide_and, Bool.not_eq_true,
      Bool.or_eq_false_iff, decide_eq_false_iff_not, Bool.and_eq_false_iff, not_not] at hexceed
    refine h.push (by omega) fun hne => ?_
    rcases hexceed.2 with hnil | htokens
    · exact absurd hnil hne
    · omega

theorem BatchState.Holds.foldl (hsize : 0 < config.batchSize) (snippets : List Snippet)
    (h : state.Holds config done) :
    (snippets.foldl (Embeddings.addSnippet config) state).Holds config (done ++ snippets) := by
  induction snippets generalizing state done with
  | nil => rwa [List.append_nil]
  | cons snippet snippets ih =>
    rw [List.foldl_cons, List.append_cons]
    exact ih (h.addSnippet hsize)

theorem BatchState.Holds.init : BatchState.Holds config [] ⟨[], [], 0⟩ where
  flatten := rfl
  index := rfl
  fits _ hbatch := absurd hbatch List.not_mem_nil
  current h := absurd rfl h
  currentTokens := rfl

/-- The batches of a list of snippets, with none being filled. -/
theorem buildBatches_holds (hsize : 0 < config.batchSize) (snippets : List Snippet) :
    ∃ tokens, BatchState.Holds config snippets ⟨buildBatches config snippets, [], tokens⟩ := by
  have h := BatchState.Holds.init.foldl hsize snippets
  rw [List.nil_append] at h
  unfold buildBatches
  generalize snippets.foldl (Embeddings.addSnippet config) ⟨[], [], 0⟩ = state at h
  by_cases hcurrent : state.current = []
  · refine ⟨state.currentTokens, ?_⟩
    simp only [hcurrent, List.isEmpty_nil, if_true]
    obtain ⟨batches, current, tokens⟩ := state
    obtain rfl : current = [] := hcurrent
    exact h
  · refine ⟨0, ?_⟩
    have hempty : state.current.isEmpty = false := by
      rwa [List.isEmpty_eq_false_iff]
    simp only [hempty]
    exact h.flush hcurrent

/-- The batches are numbered in order. -/
theorem buildBatches_pairwise (hsize : 0 < config.batchSize) (snippets : List Snippet) :
    (buildBatches config snippets).Pairwise fun a b => a.index < b.index := by
  obtain ⟨tokens, hbatches⟩ := buildBatches_holds hsize snippets
  have hindex : ((buildBatches config snippets).map ApiBatch.index).Pairwise (· < ·) := by
    have h : (buildBatches config snippets).map ApiBatch.index = List.range _ := hbatches.index
    rw [h]
    exact List.pairwise_lt_range
  exact List.pairwise_map.mp hindex

end GraphLoom.Embeddings

/-!
## Correctness of the embedding of rows

`embedTextRows_correct`: over exact arithmetic and in whatever order the model calls complete, a
call returns one document for each row that has snippets, with the vector of its only snippet or
the normalized mean of the vectors of its own snippets.

Sorting the results by their index puts them in the order of the batches, so that a call returns
what running the batches one after another returns (`EmbedState.Holds`); the vectors of the batches,
one after another, belong to the snippets in order (`flatMap_entries_eq`).
-/

namespace GraphLoom.Embeddings

open Foundation

variable {F : Type} {ops : Arithmetic F} {tools : EmbeddingTools F}
  {config : EmbeddingOperationConfig}

/-! ### Runs -/

/-- Running the batches one after another. -/
def embedSequentially (ops : Arithmetic F) (tools : EmbeddingTools F)
    (config : EmbeddingOperationConfig) (rows : SourceRows) :
    Except GraphLoomError (EmbeddingBatchOutput F) := do
  let snippets ← prepare tools config rows.rows
  if snippets = [] then
    .ok { initialOutput rows.rows [] with skippedRows := rows.rows.length }
  else do
    let results ← (buildBatches config snippets).mapM (executeBatch ops tools config)
    reconstitute ops config rows.rows snippets results

/-- What holds in every state of a call. -/
structure EmbedState.Holds (ops : Arithmetic F) (tools : EmbeddingTools F)
    (config : EmbeddingOperationConfig) (rows : SourceRows) (s : EmbedState F) : Prop where
  /-- The results are those of the batches that are not pending. -/
  results : s.returned = none →
    prepare tools config rows.rows = .ok s.snippets ∧ s.snippets ≠ [] ∧
    ∃ done, (buildBatches config s.snippets).Perm (done ++ s.stream.pending) ∧
      s.results = done.map (executeBatch ops tools config)
  returned : ∀ outcome, s.returned = some outcome → ∀ output,
    outcome = .ok output ↔ embedSequentially ops tools config rows = .ok output

variable {rows : SourceRows} {s t : EmbedState F} {label : Option ApiBatch}
  {snippets : List Snippet}

section

variable (hprepare : prepare tools config rows.rows = .ok snippets)
include hprepare

/-- A call returns at once, or what is left is to run its batches. -/
theorem embedSequentially_eq (hsnippets : snippets ≠ []) :
    embedSequentially ops tools config rows = (do
      let results ← (buildBatches config snippets).mapM (executeBatch ops tools config)
      reconstitute ops config rows.rows snippets results) := by
  unfold embedSequentially
  rw [hprepare]
  exact if_neg hsnippets

theorem batchSize_pos : 0 < config.batchSize := by
  obtain ⟨_, hconfig, -⟩ := bind_eq_ok.mp hprepare
  unfold validateConfig invalidData at hconfig
  split_ifs at hconfig with hsize
  omega

/-- **When all batches have come back, in any order, the call returns the sequential result.** -/
theorem finishEmbedding_eq_ok_iff {done : List ApiBatch} (hsnippets : snippets ≠ [])
    (hdone : (buildBatches config snippets).Perm done) (output : EmbeddingBatchOutput F) :
    finishEmbedding ops config rows.rows snippets (done.map (executeBatch ops tools config)) =
        .ok output ↔
      embedSequentially ops tools config rows = .ok output := by
  have hresults : (done.map (executeBatch ops tools config)).mapM id =
      done.mapM (executeBatch ops tools config) := by
    rw [List.mapM_map]
    rfl
  have hindex := buildBatches_pairwise (batchSize_pos hprepare) snippets
  have hkey : ∀ (batch : ApiBatch) (result : ApiBatchResult F),
      executeBatch ops tools config batch = .ok result → result.index = batch.index :=
    fun batch result h => (executeBatch_eq_ok h).index
  rw [embedSequentially_eq hprepare hsnippets]
  unfold finishEmbedding
  rw [hresults]
  constructor
  · intro h
    obtain ⟨results, hmap, h⟩ := bind_eq_ok.mp h
    have hsorted := forall₂_sort_of_results hkey hindex hdone (mapM_eq_ok_iff.mp hmap)
    exact bind_eq_ok.mpr ⟨_, mapM_eq_ok_iff.mpr hsorted, h⟩
  · intro h
    obtain ⟨sorted, hmap, h⟩ := bind_eq_ok.mp h
    -- the results in the order in which the batches came back
    obtain ⟨results, hresults, hperm⟩ :=
      List.perm_comp_forall₂ hdone.symm (mapM_eq_ok_iff.mp hmap)
    refine bind_eq_ok.mpr ⟨results, mapM_eq_ok_iff.mpr hresults, ?_⟩
    have hincreasing := pairwise_of_results hkey (mapM_eq_ok_iff.mp hmap) hindex
    rwa [insertionSort_eq_of_perm ApiBatchResult.index hperm hincreasing]

end

theorem EmbedState.Holds.init :
    (startEmbedding tools config rows.rows).Holds ops tools config rows := by
  unfold startEmbedding
  cases hprepare : prepare tools config rows.rows with
  | error error =>
    refine ⟨fun h => (nomatch h), fun outcome houtcome output => ?_⟩
    obtain rfl := Option.some.inj houtcome
    unfold embedSequentially
    rw [hprepare]
    rfl
  | ok snippets =>
    cases snippets with
    | nil =>
      refine ⟨fun h => (nomatch h), fun outcome houtcome output => ?_⟩
      obtain rfl := Option.some.inj houtcome
      unfold embedSequentially
      rw [hprepare]
      rfl
    | cons snippet snippets =>
      refine ⟨fun _ => ⟨hprepare, List.cons_ne_nil _ _, [], ?_, rfl⟩, fun _ h => (nomatch h)⟩
      show (buildBatches config _).Perm ([] ++ (buildBatches config _ ++ []))
      rw [List.nil_append, List.append_nil]

theorem EmbedState.Holds.step (h : s.Holds ops tools config rows)
    (hstep : EmbedStep ops tools config rows.rows s label t) : t.Holds ops tools config rows := by
  cases hstep with
  | start waits poll =>
    obtain ⟨hprepare, hsnippets, done, hperm, hdone⟩ := h.results waits
    constructor
    · intro _
      exact ⟨hprepare, hsnippets, done, hperm.trans (poll.pending_perm.append_left done), hdone⟩
    · exact h.returned
  | @completed stream batch waits poll =>
    obtain ⟨hprepare, hsnippets, done, hperm, hdone⟩ := h.results waits
    constructor
    · intro _
      refine ⟨hprepare, hsnippets, done ++ [batch], ?_, ?_⟩
      · rw [List.append_assoc]
        exact hperm.trans (poll.pending_perm.append_left done)
      · show s.results ++ _ = _
        rw [hdone, List.map_append]
        rfl
    · exact h.returned
  | drained waits empty =>
    obtain ⟨hprepare, hsnippets, done, hperm, hdone⟩ := h.results waits
    have hpending : s.stream.pending = [] := by
      rw [Buffer.pending, empty.1, empty.2, List.append_nil]
    rw [hpending, List.append_nil] at hperm
    constructor
    · intro hreturned
      cases hreturned
    · intro outcome houtcome output
      obtain rfl := Option.some.inj houtcome
      rw [hdone]
      exact finishEmbedding_eq_ok_iff hprepare hsnippets hperm output

theorem embedTextRows_holds (h : (embedTextRows ops tools config rows).Reachable s) :
    s.Holds ops tools config rows := by
  refine System.Reachable.invariant (fun s hs => ?_) (fun s a t _ hs hstep => hs.step hstep) h
  rw [show s = _ from hs]
  exact .init

/-- A call that has not returned can go on. -/
theorem embedTextRows_can_step (hs : s.returned = none) :
    ∃ label t, (embedTextRows ops tools config rows).step s label t := by
  by_cases hdrained : s.stream.Drained
  · exact ⟨none, _, .drained hs hdrained⟩
  · obtain ⟨label, stream, hpoll⟩ :=
      Buffer.exists_poll (lt_of_lt_of_le Nat.one_pos (le_max_right config.concurrency 1)) hdrained
    cases label with
    | none => exact ⟨none, _, .start hs hpoll⟩
    | some batch => exact ⟨some batch, _, .completed hs hpoll⟩

/-! ### What a call returns -/

/-- The output has the vectors of the rows' own snippets: the rows are split into `chunks`, which
the tokenizer counts, the model answers the batches with `answers`, and `vectors` are the same
vectors by row. -/
structure IsEmbedding (tools : EmbeddingTools ℝ) (config : EmbeddingOperationConfig)
    (rows : SourceRows) (output : EmbeddingBatchOutput ℝ) (chunks : List (List String))
    (snippets : List Snippet) (answers vectors : List (List (List ℝ))) : Prop where
  split : rows.rows.mapM (chunksOfRow tools config) = .ok chunks
  /-- The snippets are those of the call: the chunks with their tokens. -/
  prepared : prepare tools config rows.rows = .ok snippets
  texts : snippets.map Snippet.text = chunks.flatten
  counted : ∀ snippet ∈ snippets, tools.count snippet.text = .ok snippet.tokenCount
  /-- The batches concatenate to the snippets and keep to the limits. -/
  concat : (buildBatches config snippets).flatMap ApiBatch.snippets = snippets
  limits : ∀ batch ∈ buildBatches config snippets, FitsCall config batch.snippets
  /-- The model answers each batch with one vector for each of its inputs. -/
  answered : List.Forall₂ (fun batch vectors => ∃ cacheStatus,
      tools.embed batch.index (batch.snippets.map Snippet.text) = .ok ⟨vectors, cacheStatus⟩ ∧
      vectors.length = batch.snippets.length)
    (buildBatches config snippets) answers
  /-- Each row gets as many vectors as it has chunks, from the same places. -/
  regrouped : vectors.flatten = answers.flatten
  lengths : vectors.map List.length = chunks.map List.length
  /-- There is one document for each row with chunks, in the order of the rows. -/
  documents : output.documents = (rows.rows.zip vectors).filterMap fun row =>
    (rowVector config.expectedVectorSize row.2).map fun vector => ⟨row.1.id, vector⟩
  skipped : output.documents.length + output.skippedRows = output.attemptedRows
  attempted : output.attemptedRows = rows.rows.length

/-- The tokens of the snippets are those that the tokenizer counts. -/
theorem prepare_counted (h : prepare tools config rows.rows = .ok snippets) :
    ∀ snippet ∈ snippets, tools.count snippet.text = .ok snippet.tokenCount := by
  obtain ⟨_, -, h⟩ := bind_eq_ok.mp h
  obtain ⟨_, -, h⟩ := bind_eq_ok.mp h
  obtain ⟨groups, hgroups, hsnippets⟩ := bind_eq_ok.mp h
  obtain rfl := Except.ok.inj hsnippets
  intro snippet hsnippet
  obtain ⟨group, hgroup, hsnippet⟩ := List.mem_flatten.mp hsnippet
  obtain ⟨row, -, hrow⟩ := forall₂_exists_left (mapM_eq_ok_iff.mp hgroups) hgroup
  exact ((snippetsOfRow_eq_ok hrow).2 snippet hsnippet).2

theorem length_flatMap_snippets {batches : List ApiBatch} {results : List (ApiBatchResult F)}
    (h : List.Forall₂ (IsResult ops tools config) batches results) :
    (results.flatMap ApiBatchResult.embeddings).length =
      (batches.flatMap ApiBatch.snippets).length := by
  induction h with
  | nil => rfl
  | cons hresult _ ih =>
    rw [List.flatMap_cons, List.flatMap_cons, List.length_append, List.length_append, ih,
      hresult.length_eq]

/-- The documents, with the vectors by row. -/
theorem filterMap_documentOfRow (rows : List EmbeddingSourceRow) (size : ℕ)
    (entries : List (ℕ × List ℝ)) :
    rows.zipIdx.filterMap (documentOfRow size entries) =
      (rows.zip (vectorsByRow rows.length entries)).filterMap fun row =>
        (rowVector size row.2).map fun vector => ⟨row.1.id, vector⟩ := by
  have hzip : rows.zip (vectorsByRow rows.length entries) =
      rows.zipIdx.map fun e => (e.1, vectorsOfRow entries e.2) := by
    unfold vectorsByRow
    rw [List.zipIdx_eq_zip_range', List.zip_map_right, List.range_eq_range']
    rfl
  rw [hzip, List.filterMap_map]
  rfl

/-- The snippets of the rows are flattened, embedded and regrouped. -/
theorem isEmbedding_of_sequential {display : ℝ → String} {tools : EmbeddingTools ℝ}
    {output : EmbeddingBatchOutput ℝ}
    (h : embedSequentially (exact display) tools config rows = .ok output) :
    ∃ chunks snippets answers vectors,
      IsEmbedding tools config rows output chunks snippets answers vectors := by
  obtain ⟨snippets, hprepared, h⟩ := bind_eq_ok.mp h
  have hsize := batchSize_pos hprepared
  obtain ⟨_, -, hprepare⟩ := bind_eq_ok.mp hprepared
  obtain ⟨_, -, hprepare⟩ := bind_eq_ok.mp hprepare
  obtain ⟨groups, hgroups, hsnippets⟩ := bind_eq_ok.mp hprepare
  obtain rfl := Except.ok.inj hsnippets
  have hrows := mapM_eq_ok_iff.mp hgroups
  obtain ⟨hchunks, hnumbers⟩ := groupsOfRows_of_mapM hrows
  have hcount : groups.length = rows.rows.length := by
    rw [← hrows.length_eq, List.length_zipIdx]
  obtain ⟨tokens, hbatches⟩ := buildBatches_holds hsize groups.flatten
  have hconcat : (buildBatches config groups.flatten).flatMap ApiBatch.snippets =
      groups.flatten := by
    have hflatten := hbatches.flatten
    rwa [List.append_nil] at hflatten
  -- the results of the batches, empty when there are no snippets
  obtain ⟨results, hresults, houtput⟩ : ∃ results,
      List.Forall₂ (IsResult (exact display) tools config) (buildBatches config groups.flatten)
        results ∧
      (output.documents = rows.rows.zipIdx.filterMap
        (documentOfRow config.expectedVectorSize (results.flatMap ApiBatchResult.entries)) ∧
      output.documents.length + output.skippedRows = output.attemptedRows ∧
      output.attemptedRows = rows.rows.length) := by
    split_ifs at h with hempty
    · obtain rfl := Except.ok.inj h
      refine ⟨[], ?_, ?_, ?_, rfl⟩
      · rw [hempty]
        exact .nil
      · show [] = _
        exact (List.filterMap_eq_nil_iff.mpr fun row _ => rfl).symm
      · show 0 + rows.rows.length = rows.rows.length
        omega
    · obtain ⟨results, hresults, h⟩ := bind_eq_ok.mp h
      have hresults := (mapM_eq_ok_iff.mp hresults).imp fun batch result => executeBatch_eq_ok
      refine ⟨results, hresults, reconstitute_eq_ok (fun result hresult => ?_) h⟩
      obtain ⟨batch, -, hbatch⟩ := forall₂_exists_left hresults hresult
      exact hbatch.size
  obtain ⟨hdocuments, hskipped, hattempted⟩ := houtput
  let answers := results.map ApiBatchResult.embeddings
  let vectors := (groups.map List.length).splitLengths answers.flatten
  have hanswers : answers.flatten.length = (groups.map List.length).sum := by
    rw [← List.length_flatten, ← hconcat, ← length_flatMap_snippets hresults]
    rfl
  have hregrouped : vectors.flatten = answers.flatten :=
    List.flatten_splitLengths _ _ (le_of_eq hanswers)
  have hlengths : vectors.map List.length = groups.map List.length :=
    List.map_splitLengths_length _ _ (le_of_eq hanswers.symm)
  refine ⟨groups.map fun group => group.map Snippet.text, groups.flatten, answers, vectors, ?_⟩
  constructor
  · exact mapM_eq_ok_iff.mpr hchunks
  · exact hprepared
  · rw [List.map_flatten]
  · exact prepare_counted hprepared
  · exact hconcat
  · exact hbatches.fits
  · rw [List.forall₂_map_right_iff]
    refine hresults.imp fun batch result hresult => ?_
    obtain ⟨response, hresponse, hcount, hembeddings⟩ := hresult.embeddings
    have hexact : result.embeddings = response.embeddings := by
      rw [hembeddings]
      exact List.map_id'' (fun embedding => List.map_id embedding) _
    rw [hexact]
    exact ⟨response.cacheStatus, hresponse, hcount⟩
  · exact hregrouped
  · rw [hlengths, List.map_map]
    exact List.map_congr_left fun group _ => (List.length_map ..).symm
  · rw [hdocuments, filterMap_documentOfRow, flatMap_entries_eq hresults, hconcat]
    show _ = (rows.rows.zip vectors).filterMap _
    have hvectors := vectorsByRow_zip_flatten hnumbers hlengths
    rw [hregrouped, hcount] at hvectors
    rw [← hvectors]
    rfl
  · exact hskipped
  · exact hattempted

/-- When the model answers with the vector of each input, in order, each row gets the vectors of its
own chunks. -/
theorem IsEmbedding.vectors_eq {tools : EmbeddingTools ℝ} {output : EmbeddingBatchOutput ℝ}
    {chunks : List (List String)} {answers vectors : List (List (List ℝ))}
    (h : IsEmbedding tools config rows output chunks snippets answers vectors)
    {vectorOf : String → List ℝ} (hmodel : ∀ call inputs response,
      tools.embed call inputs = .ok response → response.embeddings = inputs.map vectorOf) :
    vectors = chunks.map fun chunks => chunks.map vectorOf := by
  have hanswers : answers =
      (buildBatches config snippets).map fun batch => (batch.snippets.map Snippet.text).map vectorOf := by
    rw [← List.forall₂_eq_eq_eq, List.forall₂_map_right_iff]
    refine (h.answered.imp fun batch vectors hanswer => ?_).flip
    obtain ⟨cacheStatus, hanswer, -⟩ := hanswer
    exact hmodel _ _ _ hanswer
  have hflatten : answers.flatten = chunks.flatten.map vectorOf := by
    have htexts : chunks.flatten =
        ((buildBatches config snippets).flatMap ApiBatch.snippets).map Snippet.text := by
      rw [h.concat, h.texts]
    rw [hanswers, htexts, List.map_map, List.map_flatMap, List.flatMap_def]
    simp only [List.map_map]
  apply List.eq_iff_flatten_eq.mpr
  constructor
  · rw [h.regrouped, hflatten, List.map_flatten]
  · rw [h.lengths, List.map_map]
    exact List.map_congr_left fun chunk _ => (List.length_map ..).symm

/-- **Every row gets the vectors of its own snippets**: over exact arithmetic and in every state of
every run, an output that was returned has one document for each row with snippets, in the order of
the rows, with the vector of its only snippet or the normalized mean of the vectors of its own
snippets.  The order in which the calls complete is of no importance, and a call goes on until it
returns. -/
theorem embedTextRows_correct {display : ℝ → String} {tools : EmbeddingTools ℝ} {s : EmbedState ℝ}
    (h : (embedTextRows (exact display) tools config rows).Reachable s) :
    (∀ output, s.returned = some (.ok output) → ∃ chunks snippets answers vectors,
      IsEmbedding tools config rows output chunks snippets answers vectors ∧
      ∀ vectorOf : String → List ℝ, (∀ call inputs response,
          tools.embed call inputs = .ok response → response.embeddings = inputs.map vectorOf) →
        vectors = chunks.map fun chunks => chunks.map vectorOf) ∧
    (∀ outcome, s.returned = some outcome → ∀ output,
      outcome = .ok output ↔ embedSequentially (exact display) tools config rows = .ok output) ∧
    (s.returned = none →
      ∃ label t, (embedTextRows (exact display) tools config rows).step s label t) := by
  have hs := embedTextRows_holds h
  refine ⟨fun output houtput => ?_, hs.returned, embedTextRows_can_step⟩
  have hsequential := (hs.returned _ houtput output).mp rfl
  obtain ⟨chunks, snippets, answers, vectors, hembedding⟩ := isEmbedding_of_sequential hsequential
  exact ⟨chunks, snippets, answers, vectors, hembedding, fun _ => hembedding.vectors_eq⟩

/-! ### Two batches that complete in the other order -/

/-- A text is one chunk, a token is a character, and the model answers with the number of them. -/
def sampleTools : EmbeddingTools ℝ where
  splitTextOnTokens text _ _ := .ok [text]
  count text := .ok text.length
  embed _ inputs := .ok ⟨inputs.map fun text => [(text.length : ℝ)], .notUsed⟩

/-- Two tokens a batch, so that the snippets of one and two tokens are two batches. -/
def sampleConfig : EmbeddingOperationConfig where
  workflowName := "generate_text_embeddings"
  batchSize := 4
  batchMaxTokens := 2
  concurrency := 2
  chunkOverlap := 0
  expectedVectorSize := 1
  embeddingName := "text_unit_text"

def sampleRows : SourceRows where
  rows := [⟨"a", "x"⟩, ⟨"b", " "⟩, ⟨"c", "yz"⟩]
  length_le := by decide

def sampleSnippets : List Snippet := [⟨0, "x", 1⟩, ⟨2, "yz", 2⟩]

def sampleFirst : ApiBatch := ⟨0, [⟨0, "x", 1⟩], 1⟩

def sampleSecond : ApiBatch := ⟨1, [⟨2, "yz", 2⟩], 2⟩

noncomputable def sampleOutput : EmbeddingBatchOutput ℝ where
  documents := [⟨"a", [((1 : ℕ) : ℝ)]⟩, ⟨"c", [((2 : ℕ) : ℝ)]⟩]
  attemptedRows := 3
  skippedRows := 1
  snippetCount := 2
  requestCount := 2
  cacheHits := 0
  cacheMisses := 0
  inputTokens := 3

/-- The result of a batch with one snippet. -/
theorem executeBatch_sample (display : ℝ → String) {index rowIndex tokens : ℕ} {text : String}
    (htext : text.length ≤ 2) :
    executeBatch (exact display) sampleTools sampleConfig ⟨index, [⟨rowIndex, text, tokens⟩], tokens⟩ =
      .ok ⟨index, [rowIndex], [[(text.length : ℝ)]], 1, 0, 0, tokens⟩ := by
  have hlength : (text.length : ℝ) ≤ 2 := by exact_mod_cast htext
  have hrange : ¬ ((2 ^ 24 - 1) * 2 ^ 104 : ℝ) < text.length := by
    norm_num
    linarith
  simp [executeBatch, validateResponse, validateVector, sampleTools, sampleConfig, exact, hrange,
    bind, Except.bind, pure, Except.pure]

theorem finishEmbedding_sample (display : ℝ → String) :
    finishEmbedding (exact display) sampleConfig sampleRows.rows sampleSnippets
      [executeBatch (exact display) sampleTools sampleConfig sampleSecond,
        executeBatch (exact display) sampleTools sampleConfig sampleFirst] = .ok sampleOutput := by
  unfold sampleFirst sampleSecond
  rw [executeBatch_sample display (by decide), executeBatch_sample display (by decide)]
  have hx : "x".length = 1 := by decide
  have hyz : "yz".length = 2 := by decide
  rw [hx, hyz]
  rfl

theorem embedTextRows_correct_sample : ∃ chunks snippets answers vectors,
    IsEmbedding sampleTools sampleConfig sampleRows sampleOutput chunks snippets answers vectors ∧
    ∀ vectorOf : String → List ℝ, (∀ call inputs response,
        sampleTools.embed call inputs = .ok response → response.embeddings = inputs.map vectorOf) →
      vectors = chunks.map fun chunks => chunks.map vectorOf := by
  have hinit : startEmbedding sampleTools sampleConfig sampleRows.rows =
      ⟨sampleSnippets, .full [sampleFirst, sampleSecond], [], none⟩ := by rfl
  let ops := exact fun _ => ""
  have hfirst : (embedTextRows ops sampleTools sampleConfig sampleRows).Reachable
      ⟨sampleSnippets, ⟨[sampleSecond], [sampleFirst]⟩, [], none⟩ :=
    .step (.init hinit.symm) (.start rfl (.start (by decide)))
  have hsecond : (embedTextRows ops sampleTools sampleConfig sampleRows).Reachable
      ⟨sampleSnippets, ⟨[], [sampleFirst, sampleSecond]⟩, [], none⟩ :=
    .step hfirst (.start rfl (.start (by decide)))
  -- the second batch comes back before the first one
  have hcompleted : (embedTextRows ops sampleTools sampleConfig sampleRows).Reachable
      ⟨sampleSnippets, ⟨[], [sampleFirst]⟩,
        [executeBatch ops sampleTools sampleConfig sampleSecond], none⟩ :=
    .step hsecond (.completed rfl (@Buffer.Poll.complete _ _ [] [sampleFirst] [] sampleSecond))
  have hdrained : (embedTextRows ops sampleTools sampleConfig sampleRows).Reachable
      ⟨sampleSnippets, ⟨[], []⟩,
        [executeBatch ops sampleTools sampleConfig sampleSecond,
          executeBatch ops sampleTools sampleConfig sampleFirst], none⟩ :=
    .step hcompleted (.completed rfl (@Buffer.Poll.complete _ _ [] [] [] sampleFirst))
  have hreturned : (embedTextRows ops sampleTools sampleConfig sampleRows).Reachable
      ⟨sampleSnippets, ⟨[], []⟩, _, some (finishEmbedding ops sampleConfig sampleRows.rows
        sampleSnippets [executeBatch ops sampleTools sampleConfig sampleSecond,
          executeBatch ops sampleTools sampleConfig sampleFirst])⟩ :=
    .step hdrained (.drained rfl ⟨rfl, rfl⟩)
  exact (embedTextRows_correct hreturned).1 sampleOutput
    (congrArg some (finishEmbedding_sample fun _ => ""))

end GraphLoom.Embeddings
