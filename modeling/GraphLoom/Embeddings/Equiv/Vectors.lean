import GraphLoom.Embeddings.Execute
import GraphLoom.Foundation.Fallible
import Mathlib.Algebra.BigOperators.Fin
import Mathlib.Analysis.Real.Sqrt

/-!
## The vectors of rows

* `collectRowVectors_eq_ok`: every vector is collected under the row of its snippet.
* `vectorsByRow_zip_flatten`: regrouping by row is the inverse of flattening the snippets of the rows.
* `reconstituteVectors_eq_ok`: over exact arithmetic a row gets the vector of its only snippet or the
  normalized mean of its vectors.
* `reconstitute_eq_ok`: each row becomes a document or is skipped, in order.
-/

namespace GraphLoom.Embeddings

open Foundation

variable {config : EmbeddingOperationConfig}

/-! ### Calls -/

variable {F : Type} {ops : Arithmetic F} {tools : EmbeddingTools F}

theorem validateVector_eq_ok {batchIndex : ℕ} {dimension dimension' : Option ℕ}
    {entry : List F × ℕ}
    (h : validateVector ops config batchIndex dimension entry = .ok dimension') :
    entry.1.length = config.expectedVectorSize := by
  simp only [validateVector, invalidData] at h
  split_ifs at h with hempty hfinite hrange hconsistent hsize
  exact not_not.mp hsize

theorem validateVectors_eq_ok {batchIndex : ℕ} {entries : List (List F × ℕ)}
    {dimension dimension' : Option ℕ}
    (h : entries.foldlM (validateVector ops config batchIndex) dimension = .ok dimension') :
    ∀ entry ∈ entries, entry.1.length = config.expectedVectorSize := by
  induction entries generalizing dimension with
  | nil => exact fun entry hentry => absurd hentry List.not_mem_nil
  | cons first entries ih =>
    rw [List.foldlM_cons] at h
    obtain ⟨next, hfirst, hrest⟩ := bind_eq_ok.mp h
    intro entry hentry
    rcases List.mem_cons.mp hentry with rfl | hentry
    · exact validateVector_eq_ok hfirst
    · exact ih hrest entry hentry

/-- An accepted response has one vector of the configured size for each input. -/
theorem validateResponse_eq_ok {batchIndex expectedCount : ℕ} {response : EmbeddingResponse F}
    {embeddings : List (List F)}
    (h : validateResponse ops config batchIndex expectedCount response = .ok embeddings) :
    response.embeddings.length = expectedCount ∧
    (∀ vector ∈ response.embeddings, vector.length = config.expectedVectorSize) ∧
    embeddings = response.embeddings.map fun embedding => embedding.map ops.toF32 := by
  unfold validateResponse invalidData at h
  split_ifs at h with hcount
  obtain ⟨dimension, hvectors, h⟩ := bind_eq_ok.mp h
  refine ⟨not_not.mp hcount, fun vector hvector => ?_, (Except.ok.inj h).symm⟩
  rw [← List.zipIdx_map_fst 0 response.embeddings] at hvector
  obtain ⟨entry, hentry, rfl⟩ := List.mem_map.mp hvector
  exact validateVectors_eq_ok hvectors entry hentry

/-- The result of a batch has the vectors that the model answered, with the rows of its snippets. -/
structure IsResult (ops : Arithmetic F) (tools : EmbeddingTools F)
    (config : EmbeddingOperationConfig) (batch : ApiBatch) (result : ApiBatchResult F) : Prop where
  index : result.index = batch.index
  rowIndices : result.rowIndices = batch.snippets.map Snippet.rowIndex
  embeddings : ∃ response,
    tools.embed batch.index (batch.snippets.map Snippet.text) = .ok response ∧
    response.embeddings.length = batch.snippets.length ∧
    result.embeddings = response.embeddings.map fun embedding => embedding.map ops.toF32
  size : ∀ vector ∈ result.embeddings, vector.length = config.expectedVectorSize

theorem executeBatch_eq_ok {batch : ApiBatch} {result : ApiBatchResult F}
    (h : executeBatch ops tools config batch = .ok result) :
    IsResult ops tools config batch result := by
  obtain ⟨response, hresponse, h⟩ := bind_eq_ok.mp h
  obtain ⟨embeddings, hvalid, h⟩ := bind_eq_ok.mp h
  obtain ⟨hcount, hsize, rfl⟩ := validateResponse_eq_ok hvalid
  obtain rfl := Except.ok.inj h
  refine ⟨rfl, rfl, ⟨response, hresponse, hcount, rfl⟩, fun vector hvector => ?_⟩
  obtain ⟨embedding, hembedding, rfl⟩ := List.mem_map.mp hvector
  rw [List.length_map]
  exact hsize embedding hembedding

theorem IsResult.length_eq {batch : ApiBatch} {result : ApiBatchResult F}
    (h : IsResult ops tools config batch result) :
    result.embeddings.length = batch.snippets.length := by
  obtain ⟨response, -, hcount, hembeddings⟩ := h.embeddings
  rw [hembeddings, List.length_map, hcount]

/-! ### Vectors of rows -/

/-- The vectors among `entries` that belong to a row, in order. -/
def vectorsOfRow (entries : List (ℕ × List F)) (row : ℕ) : List (List F) :=
  (entries.filter fun entry => entry.1 = row).map Prod.snd

theorem vectorsOfRow_append (entries entries' : List (ℕ × List F)) (row : ℕ) :
    vectorsOfRow (entries ++ entries') row =
      vectorsOfRow entries row ++ vectorsOfRow entries' row := by
  unfold vectorsOfRow
  rw [List.filter_append, List.map_append]

/-- The vectors by row, when `entries` are collected. -/
def vectorsByRow (rowCount : ℕ) (entries : List (ℕ × List F)) : List (List (List F)) :=
  (List.range rowCount).map (vectorsOfRow entries)

variable {vectors : List (List (List F))}

theorem addRowVector_eq_ok {rowCount batchIndex : ℕ} {entries : List (ℕ × List F)}
    {entry : ℕ × List F}
    (h : addRowVector config batchIndex (vectorsByRow rowCount entries) entry = .ok vectors) :
    vectors = vectorsByRow rowCount (entries ++ [entry]) := by
  unfold addRowVector invalidData at h
  split_ifs at h with hrow
  obtain rfl := Except.ok.inj h
  refine List.ext_getElem? fun row => ?_
  unfold vectorsByRow
  rw [List.getElem?_modify, List.getElem?_map, List.getElem?_map]
  by_cases hrange : row < rowCount
  · rw [List.getElem?_range hrange]
    show some (if entry.1 = row then vectorsOfRow entries row ++ [entry.2] else
      vectorsOfRow entries row) = some (vectorsOfRow (entries ++ [entry]) row)
    rw [vectorsOfRow_append]
    by_cases hentry : entry.1 = row <;> simp [vectorsOfRow, hentry]
  · have hnone : (List.range rowCount)[row]? = none := by
      rw [List.getElem?_eq_none_iff, List.length_range]
      omega
    rw [hnone]
    rfl

theorem addRowVectors_eq_ok {rowCount batchIndex : ℕ} {entries added : List (ℕ × List F)}
    (h : added.foldlM (addRowVector config batchIndex) (vectorsByRow rowCount entries) =
      .ok vectors) : vectors = vectorsByRow rowCount (entries ++ added) := by
  induction added generalizing entries with
  | nil =>
    rw [List.append_nil]
    exact (Except.ok.inj h).symm
  | cons entry added ih =>
    rw [List.foldlM_cons] at h
    obtain ⟨next, hentry, hrest⟩ := bind_eq_ok.mp h
    rw [addRowVector_eq_ok hentry] at hrest
    rw [List.append_cons]
    exact ih hrest

/-- The vectors of a result, with their rows. -/
def ApiBatchResult.entries (result : ApiBatchResult F) : List (ℕ × List F) :=
  result.rowIndices.zip result.embeddings

variable {results : List (ApiBatchResult F)}

theorem addResults_eq_ok {rowCount : ℕ} {entries : List (ℕ × List F)}
    (h : results.foldlM (addResult config) (vectorsByRow rowCount entries) = .ok vectors) :
    vectors = vectorsByRow rowCount (entries ++ results.flatMap ApiBatchResult.entries) := by
  induction results generalizing entries with
  | nil =>
    rw [List.flatMap_nil, List.append_nil]
    exact (Except.ok.inj h).symm
  | cons result results ih =>
    rw [List.foldlM_cons] at h
    obtain ⟨next, hresult, hrest⟩ := bind_eq_ok.mp h
    unfold addResult invalidData at hresult
    split_ifs at hresult
    rw [addRowVectors_eq_ok hresult] at hrest
    rw [List.flatMap_cons, ← List.append_assoc]
    exact ih hrest

/-- **Every vector is collected under the row of its snippet.** -/
theorem collectRowVectors_eq_ok {rowCount : ℕ}
    (h : collectRowVectors config rowCount results = .ok vectors) :
    vectors = vectorsByRow rowCount (results.flatMap ApiBatchResult.entries) := by
  have hempty : List.replicate rowCount [] = vectorsByRow rowCount ([] : List (ℕ × List F)) := by
    refine (List.eq_replicate_iff.mpr ⟨by simp [vectorsByRow], fun vectors hvectors => ?_⟩).symm
    obtain ⟨row, -, rfl⟩ := List.mem_map.mp hvectors
    rfl
  unfold collectRowVectors at h
  rw [hempty] at h
  exact addResults_eq_ok h

/-- The entries of the batches, one after another, are those of the snippets. -/
theorem flatMap_entries_eq {batches : List ApiBatch}
    (h : List.Forall₂ (IsResult ops tools config) batches results) :
    results.flatMap ApiBatchResult.entries =
      ((batches.flatMap ApiBatch.snippets).map Snippet.rowIndex).zip
        (results.flatMap ApiBatchResult.embeddings) := by
  induction h with
  | nil => rfl
  | @cons batch result batches results hresult _ ih =>
    simp only [List.flatMap_cons, List.map_append]
    rw [List.zip_append (by rw [List.length_map, hresult.length_eq]), ih]
    unfold ApiBatchResult.entries
    rw [hresult.rowIndices]

/-! ### Exact arithmetic -/

/-- Arithmetic without rounding: real numbers within the range of `f32`, all of them finite. -/
noncomputable def exact (display : ℝ → String) : Arithmetic ℝ where
  zero := 0
  add := (· + ·)
  mul := (· * ·)
  div := (· / ·)
  sqrt := Real.sqrt
  ofU32 n := n
  isFinite _ := true
  outsideF32 x := decide ((2 ^ 24 - 1) * 2 ^ 104 < |x|)
  nonPositive x := decide (x ≤ 0)
  toF32 := id
  display := display

/-- The mean of vectors, coordinate by coordinate. -/
noncomputable def mean (size : ℕ) (vectors : List (List ℝ)) (i : Fin size) : ℝ :=
  (vectors.map fun vector => vector.getD i 0).sum / vectors.length

/-- The mean of vectors, scaled to length one. -/
noncomputable def normalizedMean (size : ℕ) (vectors : List (List ℝ)) : List ℝ :=
  List.ofFn fun i => mean size vectors i / √(∑ j, mean size vectors j ^ 2)

variable {display : ℝ → String}

theorem addValues_ofFn {size : ℕ} (sums : Fin size → ℝ) {vector : List ℝ}
    (hvector : vector.length = size) :
    addValues (exact display) (List.ofFn sums) vector =
      List.ofFn fun i => sums i + vector.getD i 0 := by
  induction size generalizing vector with
  | zero =>
    obtain rfl := List.length_eq_zero_iff.mp hvector
    rfl
  | succ size ih =>
    obtain ⟨value, values, rfl⟩ := List.exists_cons_of_length_eq_add_one hvector
    rw [List.ofFn_succ, List.ofFn_succ, addValues, ih _ (Nat.succ.inj hvector)]
    rfl

variable {rowIndex : ℕ}

/-- The sums of vectors of the configured size. -/
theorem addFragments_eq {vectors : List (List ℝ)}
    (hvectors : ∀ vector ∈ vectors, vector.length = config.expectedVectorSize)
    (sums : Fin config.expectedVectorSize → ℝ) :
    vectors.foldlM (addFragment (exact display) config rowIndex) (List.ofFn sums) =
      .ok (List.ofFn fun i => sums i + (vectors.map fun vector => vector.getD i 0).sum) := by
  induction vectors generalizing sums with
  | nil => simp [pure, Except.pure]
  | cons vector vectors ih =>
    have hvector := hvectors vector (List.mem_cons_self ..)
    have hadd : addFragment (exact display) config rowIndex (List.ofFn sums) vector =
        .ok (List.ofFn fun i => sums i + vector.getD i 0) := by
      unfold addFragment
      rw [if_neg (not_not.mpr hvector), addValues_ofFn sums hvector]
    rw [List.foldlM_cons, hadd]
    show vectors.foldlM _ (List.ofFn _) = _
    rw [ih fun vector hmem => hvectors vector (List.mem_cons_of_mem _ hmem)]
    simp only [List.map_cons, List.sum_cons, add_assoc]

theorem normalizeValues_eq {norm : ℝ} {values normalized : List ℝ}
    (h : values.mapM (normalizeValue (exact display) config rowIndex norm) = .ok normalized) :
    normalized = values.map (· / norm) := by
  have hnormalized := mapM_eq_ok_iff.mp h
  induction hnormalized with
  | nil => rfl
  | @cons value result values results hvalue hrest ih =>
    rw [List.map_cons, ← ih (mapM_eq_ok_iff.mpr hrest), Except.ok.inj hvalue.symm]
    rfl

/-- The vector of a row with the given vectors of snippets. -/
noncomputable def rowVector (size : ℕ) : List (List ℝ) → Option (List ℝ)
  | [] => none
  | [vector] => some vector
  | vectors => some (normalizedMean size vectors)

theorem sumSquares_ofFn {size : ℕ} (values : Fin size → ℝ) :
    (((List.ofFn values).map fun value => (exact display).mul value value).foldl
      (exact display).add (exact display).zero) = ∑ i, values i ^ 2 := by
  have hsum : ∀ xs : List ℝ, xs.foldl (exact display).add (exact display).zero = xs.sum :=
    fun xs => (List.sum_eq_foldl).symm
  rw [hsum, List.map_ofFn, List.sum_ofFn]
  refine Finset.sum_congr rfl fun i _ => ?_
  show values i * values i = values i ^ 2
  exact (sq _).symm

/-- **A row gets the vector of its only snippet, or the normalized mean.** -/
theorem reconstituteVectors_eq_ok {vectors : List (List ℝ)} {vector : Option (List ℝ)}
    (hvectors : ∀ vector ∈ vectors, vector.length = config.expectedVectorSize)
    (h : reconstituteVectors (exact display) config vectors rowIndex = .ok vector) :
    vector = rowVector config.expectedVectorSize vectors := by
  match vectors with
  | [] => exact (Except.ok.inj h).symm
  | [v] => exact (Except.ok.inj h).symm
  | v :: w :: rest =>
    unfold reconstituteVectors at h
    obtain ⟨sums, hsums, h⟩ := bind_eq_ok.mp h
    have hzero : List.replicate config.expectedVectorSize (exact display).zero =
        List.ofFn fun _ : Fin config.expectedVectorSize => (0 : ℝ) := by
      rw [List.ofFn_const]
      rfl
    rw [hzero, addFragments_eq hvectors] at hsums
    obtain rfl := Except.ok.inj hsums
    unfold invalidData at h
    dsimp only at h
    split_ifs at h with hcount hnorm
    obtain ⟨normalized, hnormalized, h⟩ := bind_eq_ok.mp h
    obtain rfl := Except.ok.inj h
    have hmeans : ((List.ofFn fun i : Fin config.expectedVectorSize =>
        0 + ((v :: w :: rest).map fun vector => vector.getD i 0).sum).map fun sum =>
          (exact display).div sum ((exact display).ofU32 (v :: w :: rest).length)) =
        List.ofFn (mean config.expectedVectorSize (v :: w :: rest)) := by
      rw [List.map_ofFn]
      congr 1
      funext i
      show (0 + _) / _ = mean _ _ i
      rw [zero_add]
      rfl
    rw [hmeans, sumSquares_ofFn] at hnormalized
    rw [normalizeValues_eq hnormalized, List.map_ofFn]
    rfl

/-! ### Documents -/

/-- The document of a row, when it has snippets. -/
noncomputable def documentOfRow (size : ℕ) (entries : List (ℕ × List ℝ))
    (row : EmbeddingSourceRow × ℕ) : Option (VectorDocument ℝ) :=
  (rowVector size (vectorsOfRow entries row.2)).map fun vector => ⟨row.1.id, vector⟩

variable {rows : List EmbeddingSourceRow}

/-- One row joins the output, as a document or as a skipped row. -/
theorem addDocument_eq_ok {row : EmbeddingSourceRow}
    {entries : List (ℕ × List ℝ)} {output output' : EmbeddingBatchOutput ℝ}
    (hrow : rows[rowIndex]? = some row)
    (hentries : ∀ entry ∈ entries, entry.2.length = config.expectedVectorSize)
    (h : addDocument (exact display) config rows output (vectorsOfRow entries rowIndex, rowIndex) =
      .ok output') :
    output'.documents = output.documents ++
      (documentOfRow config.expectedVectorSize entries (row, rowIndex)).toList ∧
    (output.documents.length + output.skippedRows < usizeMax →
      output'.documents.length + output'.skippedRows =
        output.documents.length + output.skippedRows + 1) ∧
    output'.attemptedRows = output.attemptedRows := by
  obtain ⟨vector, hvector, h⟩ := bind_eq_ok.mp h
  have hsizes : ∀ vector ∈ vectorsOfRow entries rowIndex,
      vector.length = config.expectedVectorSize := by
    intro vector hmem
    obtain ⟨entry, hentry, rfl⟩ := List.mem_map.mp hmem
    exact hentries entry (List.mem_filter.mp hentry).1
  unfold documentOfRow
  rw [← reconstituteVectors_eq_ok hsizes hvector]
  cases vector with
  | none =>
    obtain rfl := Except.ok.inj h
    refine ⟨(List.append_nil _).symm, fun hlt => ?_, rfl⟩
    show output.documents.length + usizeAdd output.skippedRows 1 = _
    unfold usizeAdd
    omega
  | some vector =>
    dsimp only at h
    rw [hrow] at h
    obtain rfl := Except.ok.inj h
    refine ⟨rfl, fun _ => ?_, rfl⟩
    show (output.documents ++ [_]).length + output.skippedRows = _
    rw [List.length_append, List.length_singleton]
    omega

/-- **Each row becomes a document or is skipped, in order.** -/
theorem addDocuments_eq_ok {entries : List (ℕ × List ℝ)}
    (hentries : ∀ entry ∈ entries, entry.2.length = config.expectedVectorSize)
    {indexed : List (EmbeddingSourceRow × ℕ)} (hindexed : ∀ e ∈ indexed, rows[e.2]? = some e.1)
    {output output' : EmbeddingBatchOutput ℝ}
    (h : (indexed.map fun e => (vectorsOfRow entries e.2, e.2)).foldlM
      (addDocument (exact display) config rows) output = .ok output')
    (hlength : output.documents.length + output.skippedRows + indexed.length ≤ usizeMax) :
    output'.documents = output.documents ++
      indexed.filterMap (documentOfRow config.expectedVectorSize entries) ∧
    output'.documents.length + output'.skippedRows =
      output.documents.length + output.skippedRows + indexed.length ∧
    output'.attemptedRows = output.attemptedRows := by
  induction indexed generalizing output with
  | nil =>
    obtain rfl := Except.ok.inj h
    exact ⟨(List.append_nil _).symm, rfl, rfl⟩
  | cons e indexed ih =>
    rw [List.map_cons, List.foldlM_cons] at h
    obtain ⟨next, hnext, hrest⟩ := bind_eq_ok.mp h
    rw [List.length_cons] at hlength
    obtain ⟨hdocuments, hcount, hattempted⟩ :=
      addDocument_eq_ok (hindexed e (List.mem_cons_self ..)) hentries hnext
    have hcount := hcount (by omega)
    obtain ⟨hdocuments', hcount', hattempted'⟩ :=
      ih (fun e hmem => hindexed e (List.mem_cons_of_mem _ hmem)) hrest (by omega)
    refine ⟨?_, ?_, hattempted'.trans hattempted⟩
    · rw [hdocuments', hdocuments, List.append_assoc, List.filterMap_cons]
      cases documentOfRow config.expectedVectorSize entries (e.1, e.2) <;> rfl
    · rw [hcount', hcount, List.length_cons]
      omega

theorem vectorsByRow_zipIdx (rows : List EmbeddingSourceRow) (entries : List (ℕ × List F)) :
    (vectorsByRow rows.length entries).zipIdx =
      rows.zipIdx.map fun e => (vectorsOfRow entries e.2, e.2) := by
  apply List.ext_getElem
  · simp [vectorsByRow]
  · intro i h₁ h₂
    simp [vectorsByRow]

theorem addUsage_documents (output : EmbeddingBatchOutput F) (results : List (ApiBatchResult F)) :
    (results.foldl addUsage output).documents = output.documents ∧
    (results.foldl addUsage output).skippedRows = output.skippedRows ∧
    (results.foldl addUsage output).attemptedRows = output.attemptedRows := by
  induction results generalizing output with
  | nil => exact ⟨rfl, rfl, rfl⟩
  | cons result results ih => exact ih (addUsage output result)

/-- What is returned for the results of all batches in order. -/
theorem reconstitute_eq_ok {rows : SourceRows} {snippets : List Snippet}
    {results : List (ApiBatchResult ℝ)} {output : EmbeddingBatchOutput ℝ}
    (hsizes : ∀ result ∈ results, ∀ vector ∈ result.embeddings,
      vector.length = config.expectedVectorSize)
    (h : reconstitute (exact display) config rows.rows snippets results = .ok output) :
    output.documents = rows.rows.zipIdx.filterMap
      (documentOfRow config.expectedVectorSize (results.flatMap ApiBatchResult.entries)) ∧
    output.documents.length + output.skippedRows = output.attemptedRows ∧
    output.attemptedRows = rows.rows.length := by
  obtain ⟨vectors, hvectors, h⟩ := bind_eq_ok.mp h
  obtain ⟨next, hnext, h⟩ := bind_eq_ok.mp h
  obtain rfl := Except.ok.inj h
  rw [collectRowVectors_eq_ok hvectors, vectorsByRow_zipIdx] at hnext
  have hentries : ∀ entry ∈ results.flatMap ApiBatchResult.entries,
      entry.2.length = config.expectedVectorSize := by
    intro entry hentry
    obtain ⟨result, hresult, hentry⟩ := List.mem_flatMap.mp hentry
    exact hsizes result hresult entry.2 (List.of_mem_zip hentry).2
  have hindexed : ∀ e ∈ rows.rows.zipIdx, rows.rows[e.2]? = some e.1 :=
    fun e he => List.mem_zipIdx_iff_getElem?.mp he
  have hlength : (initialOutput (F := ℝ) rows.rows snippets).documents.length +
      (initialOutput (F := ℝ) rows.rows snippets).skippedRows + rows.rows.zipIdx.length ≤
        usizeMax := by
    rw [List.length_zipIdx]
    show 0 + 0 + rows.rows.length ≤ usizeMax
    have := rows.length_le
    omega
  obtain ⟨hdocuments, hcount, hattempted⟩ := addDocuments_eq_ok hentries hindexed hnext hlength
  obtain ⟨hdocuments', hskipped', hattempted'⟩ := addUsage_documents next results
  rw [hdocuments', hskipped', hattempted']
  have hrows : next.attemptedRows = rows.rows.length := hattempted
  refine ⟨by simpa [initialOutput] using hdocuments, ?_, hrows⟩
  rw [hcount, hrows, List.length_zipIdx]
  show 0 + 0 + rows.rows.length = rows.rows.length
  omega

/-! ### The snippets of the rows -/

/-- The groups of snippets have the numbers of their rows, counted from `start`. -/
def GroupsOfRows (groups : List (List Snippet)) (start : ℕ) : Prop :=
  ∀ group ∈ groups.zipIdx start, ∀ snippet ∈ group.1, snippet.rowIndex = group.2

/-- A row's snippets are its chunks, with its number and their tokens. -/
theorem snippetsOfRow_eq_ok {row : EmbeddingSourceRow × ℕ} {snippets : List Snippet}
    (h : snippetsOfRow tools config row = .ok snippets) :
    chunksOfRow tools config row.1 = .ok (snippets.map Snippet.text) ∧
    ∀ snippet ∈ snippets,
      snippet.rowIndex = row.2 ∧ tools.count snippet.text = .ok snippet.tokenCount := by
  obtain ⟨chunks, hchunks, h⟩ := bind_eq_ok.mp h
  have hsnippets := mapM_eq_ok_iff.mp h
  have hsnippet : ∀ (chunk : String) (snippet : Snippet),
      (do let tokenCount ← tools.count chunk
          .ok { rowIndex := row.2, text := chunk, tokenCount } : Except GraphLoomError Snippet) =
        .ok snippet → snippet.text = chunk ∧
          snippet.rowIndex = row.2 ∧ tools.count snippet.text = .ok snippet.tokenCount := by
    intro chunk snippet hsnippet
    obtain ⟨tokenCount, hcount, hsnippet⟩ := bind_eq_ok.mp hsnippet
    obtain rfl := Except.ok.inj hsnippet
    exact ⟨rfl, rfl, hcount⟩
  constructor
  · have htexts : chunks = snippets.map Snippet.text := by
      rw [← List.forall₂_eq_eq_eq, List.forall₂_map_right_iff]
      exact hsnippets.imp fun chunk snippet h => (hsnippet chunk snippet h).1.symm
    rw [hchunks, htexts]
  · intro snippet hmem
    obtain ⟨chunk, -, h⟩ := forall₂_exists_left hsnippets hmem
    exact (hsnippet chunk snippet h).2

variable {groups : List (List Snippet)}

theorem groupsOfRows_of_mapM
    {start : ℕ} (h : List.Forall₂ (fun row group => snippetsOfRow tools config row = .ok group)
      (rows.zipIdx start) groups) :
    List.Forall₂ (fun row chunks => chunksOfRow tools config row = .ok chunks) rows
      (groups.map fun group => group.map Snippet.text) ∧ GroupsOfRows groups start := by
  induction rows generalizing groups start with
  | nil =>
    obtain rfl := List.forall₂_nil_left_iff.mp h
    exact ⟨.nil, fun group hgroup => absurd hgroup List.not_mem_nil⟩
  | cons row rows ih =>
    rw [List.zipIdx_cons, List.forall₂_cons_left_iff] at h
    obtain ⟨group, groups', hgroup, hrest, rfl⟩ := h
    obtain ⟨hchunks, hsnippets⟩ := snippetsOfRow_eq_ok hgroup
    obtain ⟨hchunks', hindex'⟩ := ih hrest
    refine ⟨.cons hchunks hchunks', ?_⟩
    intro group' hgroup'
    rw [List.zipIdx_cons] at hgroup'
    rcases List.mem_cons.mp hgroup' with rfl | hgroup'
    · exact fun snippet hsnippet => (hsnippets snippet hsnippet).1
    · exact hindex' group' hgroup'

theorem replicate_zip (own : List (List F)) (tag : ℕ) :
    (List.replicate own.length tag).zip own = own.map fun vector => (tag, vector) := by
  induction own with
  | nil => rfl
  | cons vector own ih =>
    rw [List.length_cons, List.replicate_succ, List.zip_cons_cons, ih, List.map_cons]

/-- The vectors of the snippets carry the numbers of their rows. -/
theorem zip_flatten_eq {start : ℕ} (hgroups : GroupsOfRows groups start)
    (hlengths : vectors.map List.length = groups.map List.length) :
    (groups.flatten.map Snippet.rowIndex).zip vectors.flatten =
      (vectors.zipIdx start).flatMap fun e => e.1.map fun vector => (e.2, vector) := by
  induction groups generalizing vectors start with
  | nil =>
    obtain rfl := List.map_eq_nil_iff.mp hlengths
    rfl
  | cons group groups ih =>
    obtain ⟨own, vectors, rfl⟩ : ∃ own vectors', vectors = own :: vectors' := by
      cases vectors with
      | nil => cases hlengths
      | cons own vectors => exact ⟨own, vectors, rfl⟩
    obtain ⟨hlength, hlengths⟩ := List.cons.inj hlengths
    have hrows : group.map Snippet.rowIndex = List.replicate own.length start := by
      refine List.eq_replicate_iff.mpr ⟨by rw [List.length_map, hlength], fun row hrow => ?_⟩
      obtain ⟨snippet, hsnippet, rfl⟩ := List.mem_map.mp hrow
      exact hgroups (group, start) (by rw [List.zipIdx_cons]; exact List.mem_cons_self ..) snippet
        hsnippet
    have hrest : GroupsOfRows groups (start + 1) := by
      intro group' hgroup'
      refine hgroups group' ?_
      rw [List.zipIdx_cons]
      exact List.mem_cons_of_mem _ hgroup'
    rw [List.flatten_cons, List.map_append, List.flatten_cons, List.zip_append
      (by rw [List.length_map, hlength]), ih hrest hlengths, hrows, replicate_zip,
      List.zipIdx_cons,
      List.flatMap_cons]

theorem vectorsOfRow_tagged (own : List (List F)) (tag row : ℕ) :
    vectorsOfRow (own.map fun vector => (tag, vector)) row = if tag = row then own else [] := by
  unfold vectorsOfRow
  rw [List.filter_map]
  by_cases h : tag = row
  · simp [h, Function.comp_def]
  · simp [h, Function.comp_def]

/-- A row gets back exactly its own vectors. -/
theorem vectorsOfRow_flatMap (vectors : List (List (List F))) (start row : ℕ) :
    vectorsOfRow ((vectors.zipIdx start).flatMap fun e => e.1.map fun vector => (e.2, vector)) row =
      if start ≤ row then vectors[row - start]?.getD [] else [] := by
  induction vectors generalizing start with
  | nil => simp [vectorsOfRow]
  | cons own vectors ih =>
    rw [List.zipIdx_cons, List.flatMap_cons, vectorsOfRow_append, ih, vectorsOfRow_tagged]
    rcases Nat.lt_trichotomy start row with hlt | rfl | hlt
    · have hsub : row - start = row - (start + 1) + 1 := by omega
      rw [if_neg (by omega), if_pos (by omega), if_pos (by omega), hsub, List.getElem?_cons_succ,
        List.nil_append]
    · rw [if_pos rfl, if_neg (by omega), if_pos (by omega), Nat.sub_self, List.getElem?_cons_zero,
        List.append_nil]
      rfl
    · rw [if_neg (by omega), if_neg (by omega), if_neg (by omega)]
      rfl

/-- **Regrouping by row is the inverse of flattening.** -/
theorem vectorsByRow_zip_flatten
    (hgroups : GroupsOfRows groups 0) (hlengths : vectors.map List.length = groups.map List.length) :
    vectorsByRow groups.length ((groups.flatten.map Snippet.rowIndex).zip vectors.flatten) =
      vectors := by
  have hlength : vectors.length = groups.length := by
    simpa using congrArg List.length hlengths
  rw [zip_flatten_eq hgroups hlengths]
  refine List.ext_getElem (by simp [vectorsByRow, hlength]) fun row hrow hrow' => ?_
  simp only [vectorsByRow, List.getElem_map, List.getElem_range, vectorsOfRow_flatMap]
  simp [hrow']

end GraphLoom.Embeddings
