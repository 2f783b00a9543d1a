import GraphLoom.Chunking.TokenChunker
import GraphLoom.Foundation.Fallible
import GraphLoom.Foundation.Windows

/-!
# The chunks tile the tokens

The loop ends, its slices are in range, and its chunks are the overlapping windows of the tokens
(`splitTextOnTokens_tiles`).
-/

namespace GraphLoom.Chunking

open Foundation

/-- The positions of a chunk, with the one behind its last. -/
def TokenChunk.span (chunk : TokenChunk) : ℕ × ℕ := (chunk.startToken, chunk.endToken + 1)

/-- The text of a chunk is that of its tokens. -/
def Decodes (tokens : List UInt32) (decode : TokenDecode) (chunk : TokenChunk) : Prop :=
  ∃ chunkTokens, slice tokens chunk.startToken (chunk.endToken + 1) = some chunkTokens ∧
    decode chunkTokens = .ok chunk.text

/-- A window of the tokens is not decoded. -/
def Refuses (tokens : List UInt32) (size : ℕ) (decode : TokenDecode) (error : ChunkingError) : Prop :=
  ∃ start stop window, slice tokens start stop = some window ∧ window.length ≤ size ∧
    decode window = .error error

/-- The chunks tile the tokens: the first begins with them, the last ends with them, each has one
token at least and `size` at most and is decoded from its tokens, each begins `overlap` tokens
before the end of the one before it and ends behind that end, and every token is in a chunk. -/
structure Tiles (tokens : List UInt32) (size overlap : ℕ) (decode : TokenDecode)
    (chunks : List TokenChunk) : Prop where
  empty : chunks = [] ↔ tokens = []
  first : ∀ chunk, chunks.head? = some chunk → chunk.startToken = 0
  last : ∀ chunk, chunks.getLast? = some chunk → chunk.endToken + 1 = tokens.length
  bounds : ∀ chunk ∈ chunks, chunk.startToken ≤ chunk.endToken ∧ chunk.endToken < tokens.length ∧
    chunk.endToken + 1 - chunk.startToken ≤ size
  contents : ∀ chunk ∈ chunks, Decodes tokens decode chunk
  overlaps : chunks.IsChain fun chunk next => next.startToken + overlap = chunk.endToken + 1 ∧
    chunk.startToken < next.startToken ∧ chunk.endToken < next.endToken
  covers : ∀ position < tokens.length, ∃ chunk ∈ chunks,
    chunk.startToken ≤ position ∧ position ≤ chunk.endToken

section Loop

variable {tokens : List UInt32} {size overlap : ℕ} {decode : TokenDecode}

/-- From an index in range the loop has one outcome, whatever fuel it has, and adds windows. -/
theorem windowLoop_spec (hlength : tokens.length ≤ usizeMax) (hoverlap : overlap < size)
    (start : ℕ) (hstart : start < tokens.length) (result : List TokenChunk) :
    ∃ outcome, (∀ fuel, tokens.length - start < fuel →
        windowLoop tokens size overlap decode fuel start
          (min (usizeAdd start size) tokens.length) result = some outcome) ∧
      (∀ error, outcome = .error error → Refuses tokens size decode error) ∧
      ∀ chunks, outcome = .ok chunks → ∃ added, chunks = result ++ added ∧
        Windows size overlap tokens.length start (added.map (·.span)) ∧
        ∀ chunk ∈ added, Decodes tokens decode chunk := by
  induction hn : tokens.length - start using Nat.strong_induction_on generalizing start result with
  | _ n ih =>
    have hcur : min (usizeAdd start size) tokens.length = min (start + size) tokens.length := by
      unfold usizeAdd
      omega
    rw [hcur]
    have hslice : slice tokens start (min (start + size) tokens.length) =
        some ((tokens.take (min (start + size) tokens.length)).drop start) := by
      unfold slice
      rw [if_pos (by omega)]
    have hspan : min (start + size) tokens.length - 1 + 1 = min (start + size) tokens.length := by
      omega
    cases hdecode : decode ((tokens.take (min (start + size) tokens.length)).drop start) with
    | error error =>
      refine ⟨.error error, ?_, ?_, fun _ h => by cases h⟩
      · intro fuel hfuel
        obtain ⟨fuel, rfl⟩ : ∃ k, fuel = k + 1 := ⟨fuel - 1, by omega⟩
        rw [windowLoop, if_pos hstart, hslice]
        dsimp only
        rw [hdecode]
      · intro _ h
        obtain rfl := Except.error.inj h
        refine ⟨_, _, _, hslice, ?_, hdecode⟩
        rw [List.length_drop, List.length_take]
        omega
    | ok text =>
      have hcontents : Decodes tokens decode ⟨text, start, min (start + size) tokens.length - 1⟩ :=
        ⟨_, by rw [hspan]; exact hslice, hdecode⟩
      by_cases hend : min (start + size) tokens.length = tokens.length
      · refine ⟨.ok (result ++ [⟨text, start, min (start + size) tokens.length - 1⟩]), ?_,
          fun _ h => (nomatch h), ?_⟩
        · intro fuel hfuel
          obtain ⟨fuel, rfl⟩ : ∃ k, fuel = k + 1 := ⟨fuel - 1, by omega⟩
          rw [windowLoop, if_pos hstart, hslice]
          dsimp only
          rw [hdecode]
          exact if_pos hend
        · intro chunks hchunks
          refine ⟨_, (Except.ok.inj hchunks).symm, ?_, ?_⟩
          · show Windows size overlap tokens.length start
              [(start, min (start + size) tokens.length - 1 + 1)]
            rw [hspan, hend]
            exact Windows.last hstart (by omega)
          · intro chunk hchunk
            rw [List.mem_singleton.mp hchunk]
            exact hcontents
      · -- the next window begins behind this one, and before the end of the tokens
        have hnext : usizeAdd start (size - overlap) = start + (size - overlap) := by
          unfold usizeAdd
          omega
        obtain ⟨outcome, houtcome, hrefuses, hadded⟩ := ih (tokens.length - (start + (size - overlap)))
          (by omega) (start + (size - overlap)) (by omega)
          (result ++ [⟨text, start, min (start + size) tokens.length - 1⟩]) rfl
        refine ⟨outcome, ?_, hrefuses, ?_⟩
        · intro fuel hfuel
          obtain ⟨fuel, rfl⟩ : ∃ k, fuel = k + 1 := ⟨fuel - 1, by omega⟩
          rw [windowLoop, if_pos hstart, hslice]
          dsimp only
          rw [hdecode]
          dsimp only
          rw [if_neg hend, hnext]
          exact houtcome fuel (by omega)
        · intro chunks hchunks
          obtain ⟨added, heq, hwindows, hall⟩ := hadded chunks hchunks
          refine ⟨⟨text, start, min (start + size) tokens.length - 1⟩ :: added, ?_, ?_, ?_⟩
          · rw [heq, List.append_assoc, List.singleton_append]
          · have hfull : min (start + size) tokens.length - 1 + 1 = start + size := by omega
            show Windows size overlap tokens.length start
              ((start, min (start + size) tokens.length - 1 + 1) :: added.map (·.span))
            rw [hfull]
            exact Windows.step (by omega) hwindows
          · intro chunk hchunk
            obtain rfl | hchunk := List.mem_cons.mp hchunk
            · exact hcontents
            · exact hall chunk hchunk

/-- Windows from the first token on tile the tokens. -/
theorem tiles_of_windows {chunks : List TokenChunk} (hoverlap : overlap < size)
    (hne : tokens ≠ []) (hwindows : Windows size overlap tokens.length 0 (chunks.map (·.span)))
    (hcontents : ∀ chunk ∈ chunks, Decodes tokens decode chunk) :
    Tiles tokens size overlap decode chunks := by
  obtain ⟨stop, hhead⟩ := hwindows.head?
  obtain ⟨first, hlast⟩ := hwindows.getLast?
  constructor
  · refine iff_of_false ?_ hne
    rintro rfl
    cases hhead
  · intro chunk hchunk
    rw [List.head?_map, hchunk, Option.map_some, Option.some_inj] at hhead
    exact congrArg Prod.fst hhead
  · intro chunk hchunk
    rw [List.getLast?_map, hchunk, Option.map_some, Option.some_inj] at hlast
    exact congrArg Prod.snd hlast
  · intro chunk hchunk
    have hbounds := hwindows.bounds (by omega) chunk.span (List.mem_map_of_mem hchunk)
    unfold TokenChunk.span at hbounds
    dsimp only at hbounds
    omega
  · exact hcontents
  · have hchain := (List.isChain_map _).mp (hwindows.isChain hoverlap)
    refine hchain.imp ?_
    rintro chunk next ⟨hnext, hstart, hstop⟩
    exact ⟨hnext, hstart, Nat.lt_of_succ_lt_succ hstop⟩
  · intro position hposition
    obtain ⟨span, hspan, hin⟩ := hwindows.covers position (Nat.zero_le _) hposition
    obtain ⟨chunk, hchunk, rfl⟩ := List.mem_map.mp hspan
    exact ⟨chunk, hchunk, hin.1, Nat.le_of_lt_succ hin.2⟩

end Loop

section Split

variable {text : String} {size overlap : ℕ} {encode : TokenEncode} {decode : TokenDecode}
  {tokens : TokenVec}

theorem splitTextOnTokensWithSpans_spec (hoverlap : overlap < size)
    (hencode : encode text = .ok tokens) :
    ∃ outcome, (∀ fuel, tokens.tokens.length < fuel →
        splitTextOnTokensWithSpans fuel text size overlap encode decode = some outcome) ∧
      (∀ error, outcome = .error error → Refuses tokens.tokens size decode error) ∧
      ∀ chunks, outcome = .ok chunks → Tiles tokens.tokens size overlap decode chunks := by
  have hsplit : ∀ fuel, splitTextOnTokensWithSpans fuel text size overlap encode decode =
      windowLoop tokens.tokens size overlap decode fuel 0
        (min (usizeAdd 0 size) tokens.tokens.length) [] := by
    intro fuel
    unfold splitTextOnTokensWithSpans
    rw [if_neg (by omega), hencode]
  by_cases hne : tokens.tokens = []
  · refine ⟨.ok [], ?_, fun _ h => (nomatch h), ?_⟩
    · intro fuel hfuel
      obtain ⟨fuel, rfl⟩ : ∃ k, fuel = k + 1 := ⟨fuel - 1, by omega⟩
      rw [hsplit, windowLoop, if_neg (by simp [hne])]
    · intro chunks hchunks
      obtain rfl := Except.ok.inj hchunks
      constructor
      all_goals simp [hne]
  · have hpos : 0 < tokens.tokens.length := List.length_pos_iff.mpr hne
    obtain ⟨outcome, houtcome, hrefuses, hadded⟩ := @windowLoop_spec _ _ _ decode tokens.length_le hoverlap 0
      hpos []
    refine ⟨outcome, ?_, hrefuses, ?_⟩
    · intro fuel hfuel
      rw [hsplit]
      exact houtcome fuel (by omega)
    · intro chunks hchunks
      obtain ⟨added, rfl, hwindows, hall⟩ := hadded chunks hchunks
      exact tiles_of_windows hoverlap hne hwindows hall

theorem createChunkResults_spans {transform : Option (String → String)} {index : ℕ}
    {chunks : List TokenChunk} {results : List TextChunk}
    (h : createChunkResults transform encode index chunks = .ok results) :
    results.map (fun result => (result.original, result.startToken, result.endToken)) =
      chunks.map fun chunk => (chunk.text, some chunk.startToken, some chunk.endToken) := by
  induction chunks generalizing index results with
  | nil =>
    obtain rfl := Except.ok.inj h
    rfl
  | cons chunk chunks ih =>
    obtain ⟨tokens, -, h⟩ := bind_eq_ok.mp h
    obtain ⟨rest, hrest, h⟩ := bind_eq_ok.mp h
    obtain rfl := Except.ok.inj h
    rw [List.map_cons, List.map_cons, ih hrest]

end Split

/-- With enough fuel the loop ends, without a slice that is out of range, and well if every window
is decoded; its chunks tile the tokens, and their texts and positions are those of the results. -/
theorem splitTextOnTokens_tiles (text : String) (size overlap : ℕ) (encode : TokenEncode)
    (decode : TokenDecode) (tokens : TokenVec) (hoverlap : overlap < size)
    (hencode : encode text = .ok tokens) :
    ∃ outcome : Except ChunkingError (List TokenChunk),
      (∀ chunks, outcome = .ok chunks → Tiles tokens.tokens size overlap decode chunks) ∧
      (∀ error, outcome = .error error → Refuses tokens.tokens size decode error) ∧
      (∀ fuel, tokens.tokens.length < fuel →
        splitTextOnTokensWithSpans fuel text size overlap encode decode = some outcome ∧
        splitTextOnTokens fuel text size overlap encode decode =
          some (outcome.map fun chunks => chunks.map (·.text))) ∧
      ∀ (chunker : TokenOverlapChunker) (fuel : ℕ) (transform : Option (String → String))
        (results : List TextChunk), chunker.config = ⟨size, overlap⟩ → chunker.encode = encode →
        chunker.decode = decode → tokens.tokens.length < fuel →
        chunker.chunk fuel text transform = some (.ok results) →
        ∃ chunks, outcome = .ok chunks ∧
          results.map (fun result => (result.original, result.startToken, result.endToken)) =
            chunks.map fun chunk => (chunk.text, some chunk.startToken, some chunk.endToken) := by
  obtain ⟨outcome, houtcome, hrefuses, htiles⟩ :=
    @splitTextOnTokensWithSpans_spec text _ _ encode decode _ hoverlap hencode
  refine ⟨outcome, htiles, hrefuses, ?_, ?_⟩
  · intro fuel hfuel
    refine ⟨houtcome fuel hfuel, ?_⟩
    unfold splitTextOnTokens
    rw [houtcome fuel hfuel]
    rfl
  · intro chunker fuel transform results hconfig hencoder hdecoder hfuel hchunk
    unfold TokenOverlapChunker.chunk at hchunk
    rw [hconfig, hencoder, hdecoder, houtcome fuel hfuel] at hchunk
    obtain ⟨chunks, rfl, hresults⟩ := bind_eq_ok.mp (Option.some_inj.mp hchunk)
    exact ⟨chunks, rfl, createChunkResults_spans hresults⟩

theorem splitTextOnTokens_tiles_sample :
    ∃ chunks, splitTextOnTokensWithSpans 8 "abcdefg" 4 1
        (fun _ => .ok ⟨[1, 2, 3, 4, 5, 6, 7], by decide⟩) (fun _ => .ok "x") = some (.ok chunks) ∧
      Tiles [1, 2, 3, 4, 5, 6, 7] 4 1 (fun _ => .ok "x") chunks := by
  obtain ⟨outcome, htiles, -, houtcome, -⟩ := splitTextOnTokens_tiles "abcdefg" 4 1
    (fun _ => .ok ⟨[1, 2, 3, 4, 5, 6, 7], by decide⟩) (fun _ => .ok "x")
    ⟨[1, 2, 3, 4, 5, 6, 7], by decide⟩ (by decide) rfl
  have hrun := (houtcome 8 (by decide)).1
  refine ⟨[⟨"x", 0, 3⟩, ⟨"x", 3, 6⟩], rfl, htiles _ ?_⟩
  exact Option.some_inj.mp (hrun.symm.trans rfl)

end GraphLoom.Chunking
