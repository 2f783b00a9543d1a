import GraphLoom.Dataframe
import GraphLoom.Foundation.Scan

/-!
# Chunks of tokens

A text is encoded, cut into windows of tokens that overlap, and each window is decoded.  The encoder
and the decoder are those of a tokenizer.
-/

namespace GraphLoom.Chunking

open Foundation

inductive ChunkingError where
  | invalidToken (codec : String) (token : UInt32)
  | invalidConfig (message : String)
  | tokenizer (encodingModel message : String)
deriving DecidableEq, Repr

/-- A vector of tokens; its length is a `usize`. -/
structure TokenVec where
  tokens : List UInt32
  length_le : tokens.length ≤ usizeMax

abbrev TokenEncode := String → Except ChunkingError TokenVec

abbrev TokenDecode := List UInt32 → Except ChunkingError String

structure ChunkingConfig where
  size : ℕ
  overlap : ℕ
deriving DecidableEq, Repr

def overlapError (overlap size : ℕ) : ChunkingError :=
  .invalidConfig ("overlap " ++ toString overlap ++ " must be smaller than size " ++ toString size)

def ChunkingConfig.validate (config : ChunkingConfig) : Except ChunkingError Unit :=
  if config.size ≤ config.overlap then .error (overlapError config.overlap config.size)
  else .ok ()

structure TokenChunk where
  text : String
  startToken : ℕ
  endToken : ℕ
deriving DecidableEq, Repr

structure TextChunk where
  original : String
  text : String
  index : ℕ
  startChar : Option ℕ
  endChar : Option ℕ
  startToken : Option ℕ
  endToken : Option ℕ
  tokenCount : Option ℕ
deriving DecidableEq, Repr

/-- The loop over the windows, for as many turns as there is fuel.  There is no result when the fuel
is used up or a slice is out of range. -/
def windowLoop (tokens : List UInt32) (chunkSize chunkOverlap : ℕ) (decode : TokenDecode) :
    ℕ → ℕ → ℕ → List TokenChunk → Option (Except ChunkingError (List TokenChunk))
  | 0, _, _, _ => none
  | fuel + 1, startIdx, curIdx, result =>
    if startIdx < tokens.length then
      match slice tokens startIdx curIdx with
      | none => none
      | some chunkTokens =>
        match decode chunkTokens with
        | .error error => some (.error error)
        | .ok text =>
          let result := result ++ [⟨text, startIdx, curIdx - 1⟩]
          if curIdx = tokens.length then some (.ok result)
          else
            let startIdx := usizeAdd startIdx (chunkSize - chunkOverlap)
            let curIdx := min (usizeAdd startIdx chunkSize) tokens.length
            windowLoop tokens chunkSize chunkOverlap decode fuel startIdx curIdx result
    else some (.ok result)

def splitTextOnTokensWithSpans (fuel : ℕ) (text : String) (chunkSize chunkOverlap : ℕ)
    (encode : TokenEncode) (decode : TokenDecode) :
    Option (Except ChunkingError (List TokenChunk)) :=
  if chunkSize ≤ chunkOverlap then some (.error (overlapError chunkOverlap chunkSize))
  else
    match encode text with
    | .error error => some (.error error)
    | .ok inputTokens =>
      let curIdx := min (usizeAdd 0 chunkSize) inputTokens.tokens.length
      windowLoop inputTokens.tokens chunkSize chunkOverlap decode fuel 0 curIdx []

def splitTextOnTokens (fuel : ℕ) (text : String) (chunkSize chunkOverlap : ℕ)
    (encode : TokenEncode) (decode : TokenDecode) : Option (Except ChunkingError (List String)) :=
  (splitTextOnTokensWithSpans fuel text chunkSize chunkOverlap encode decode).map fun chunks =>
    chunks.map fun chunks => chunks.map (·.text)

def createChunkResults (transform : Option (String → String)) (encode : TokenEncode) (index : ℕ) :
    List TokenChunk → Except ChunkingError (List TextChunk)
  | [] => .ok []
  | chunk :: chunks => do
    let text := transform.elim chunk.text fun transform => transform chunk.text
    let tokens ← encode text
    let results ← createChunkResults transform encode (index + 1) chunks
    return { original := chunk.text
             text := text
             index := index
             startChar := none
             endChar := none
             startToken := some chunk.startToken
             endToken := some chunk.endToken
             tokenCount := some tokens.tokens.length } :: results

structure TokenOverlapChunker where
  config : ChunkingConfig
  encode : TokenEncode
  decode : TokenDecode
  valid : config.validate = .ok ()

def TokenOverlapChunker.chunk (chunker : TokenOverlapChunker) (fuel : ℕ) (text : String)
    (transform : Option (String → String)) : Option (Except ChunkingError (List TextChunk)) :=
  (splitTextOnTokensWithSpans fuel text chunker.config.size chunker.config.overlap chunker.encode
    chunker.decode).map fun chunks => chunks.bind (createChunkResults transform chunker.encode 0)

end GraphLoom.Chunking
