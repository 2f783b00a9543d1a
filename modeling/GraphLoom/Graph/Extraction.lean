import GraphLoom.Dataframe
import GraphLoom.Foundation.BufferUnordered
import GraphLoom.Foundation.FirstSeen

/-!
# Extracting the graph of the text units

The raw rows of all text units are merged into one row for each entity, by title and type, and one
for each relationship, by source and target.  Relationships with an endpoint that is no entity are
dropped.

The text units are sent to the model with at most `concurrency` calls in flight, and their records
come back in the order in which the calls complete.  They are put back in the order of the text
units before they are merged.
-/

namespace GraphLoom.Graph

open Foundation

section Merging

structure TextUnitInput where
  id : String
  text : String
deriving DecidableEq, Repr

structure RawEntityRow where
  title : String
  entityType : String
  description : String
  sourceId : String
deriving DecidableEq, Repr

structure RawRelationshipRow (ω : Type) where
  source : String
  target : String
  description : String
  sourceId : String
  weight : ω
deriving DecidableEq, Repr

structure EntityRow where
  title : String
  entityType : String
  description : List String
  textUnitIds : List String
  frequency : ℤ
deriving DecidableEq, Repr

structure RelationshipRow (ω : Type) where
  source : String
  target : String
  description : List String
  textUnitIds : List String
  weight : ω
deriving DecidableEq, Repr

variable {ω : Type}

/-! ### Entities -/

def RawEntityRow.key (row : RawEntityRow) : String × String := (row.title, row.entityType)

/-- The group that a raw entity opens. -/
def EntityRow.new (row : RawEntityRow) : EntityRow where
  title := row.title
  entityType := row.entityType
  description := [row.description]
  textUnitIds := [row.sourceId]
  frequency := 1

/-- A raw entity joins its group. -/
def EntityRow.push (entry : EntityRow) (row : RawEntityRow) : EntityRow :=
  { entry with
    description := entry.description ++ [row.description]
    textUnitIds := entry.textUnitIds ++ [row.sourceId]
    frequency := saturatingAdd entry.frequency 1 }

def mergeEntities (rows : List RawEntityRow) : List EntityRow :=
  mergeFirstSeen RawEntityRow.key EntityRow.new EntityRow.push rows

/-! ### Relationships -/

def RawRelationshipRow.key (row : RawRelationshipRow ω) : String × String :=
  (row.source, row.target)

/-- The group that a raw relationship opens. -/
def RelationshipRow.new (row : RawRelationshipRow ω) : RelationshipRow ω where
  source := row.source
  target := row.target
  description := [row.description]
  textUnitIds := [row.sourceId]
  weight := row.weight

/-- A raw relationship joins its group. -/
def RelationshipRow.push [Add ω] (entry : RelationshipRow ω) (row : RawRelationshipRow ω) :
    RelationshipRow ω :=
  { entry with
    description := entry.description ++ [row.description]
    textUnitIds := entry.textUnitIds ++ [row.sourceId]
    weight := entry.weight + row.weight }

def mergeRelationships [Add ω] (rows : List (RawRelationshipRow ω)) : List (RelationshipRow ω) :=
  mergeFirstSeen RawRelationshipRow.key RelationshipRow.new RelationshipRow.push rows

def filterOrphanRelationships (relationships : List (RelationshipRow ω))
    (entities : List EntityRow) : List (RelationshipRow ω) :=
  let titles := entities.map EntityRow.title
  relationships.filter fun relationship =>
    relationship.source ∈ titles ∧ relationship.target ∈ titles

end Merging

/-! ## Extracting the graph of the text units -/

section Extracting

variable {ω : Type}

def extractGraphContext : String := "extract_graph"

structure ExtractedGraph (ω : Type) where
  entities : List EntityRow
  relationships : List (RelationshipRow ω)
deriving DecidableEq, Repr

/-- The records that a model call extracts from a text unit. -/
abbrev RawRecords (ω : Type) := List RawEntityRow × List (RawRelationshipRow ω)

/-- The state of a call of `extract_graph`. -/
structure ExtractGraphState (ω : Type) where
  stream : Buffer (TextUnitInput × ℕ)
  completed : ℕ
  -- the calls of the progress callback
  progress : List (ℕ × ℕ)
  extracted : List (ℕ × RawRecords ω)
  returned : Option (Except GraphLoomError (ExtractedGraph ω))

/-- What is left to do once the records of all text units are there, in their order. -/
def mergeExtracted [Add ω] (extracted : List (RawRecords ω)) :
    Except GraphLoomError (ExtractedGraph ω) :=
  let rawEntities := extracted.flatMap Prod.fst
  let rawRelationships := extracted.flatMap Prod.snd
  let entities := mergeEntities rawEntities
  let relationships := filterOrphanRelationships (mergeRelationships rawRelationships) entities
  if entities.isEmpty then
    .error (.invalidData extractGraphContext
      "Graph Extraction failed. No entities detected during extraction.")
  else if relationships.isEmpty then
    .error (.invalidData extractGraphContext
      "Graph Extraction failed. No relationships detected during extraction.")
  else .ok { entities, relationships }

/-- What is left to do once the stream is drained. -/
def finishExtraction [Add ω] (extracted : List (ℕ × RawRecords ω)) :
    Except GraphLoomError (ExtractedGraph ω) :=
  mergeExtracted ((extracted.insertionSort fun a b => a.1 ≤ b.1).map Prod.snd)

/-- The steps of a call: a future starts, one completes with its records or with an error, or the
stream ends. -/
inductive ExtractGraphAction where
  | start
  | completed (index : ℕ)
  | drained

inductive ExtractGraphStep [Add ω] (extract : TextUnitInput → Except GraphLoomError (RawRecords ω))
    (concurrency total : ℕ) (s : ExtractGraphState ω) :
    ExtractGraphAction → ExtractGraphState ω → Prop
  | start {stream : Buffer (TextUnitInput × ℕ)} (waits : s.returned = none)
      (poll : Buffer.Poll (max concurrency 1) s.stream none stream) :
      ExtractGraphStep extract concurrency total s .start { s with stream }
  | extracted {stream : Buffer (TextUnitInput × ℕ)} {textUnit : TextUnitInput} {index : ℕ}
      {records : RawRecords ω} (waits : s.returned = none)
      (poll : Buffer.Poll (max concurrency 1) s.stream (some (textUnit, index)) stream)
      (result : extract textUnit = .ok records) :
      ExtractGraphStep extract concurrency total s (.completed index)
        { s with
          stream
          completed := s.completed + 1
          progress := s.progress ++ [(s.completed + 1, total)]
          extracted := s.extracted ++ [(index, records)] }
  -- the first error ends the call; the futures in flight are dropped
  | failed {stream : Buffer (TextUnitInput × ℕ)} {textUnit : TextUnitInput} {index : ℕ}
      {error : GraphLoomError} (waits : s.returned = none)
      (poll : Buffer.Poll (max concurrency 1) s.stream (some (textUnit, index)) stream)
      (result : extract textUnit = .error error) :
      ExtractGraphStep extract concurrency total s (.completed index)
        { s with stream, returned := some (.error error) }
  | drained (waits : s.returned = none) (empty : s.stream.Drained) :
      ExtractGraphStep extract concurrency total s .drained
        { s with returned := some (finishExtraction s.extracted) }

/-- A call of `extract_graph`, over every order in which the model calls complete. -/
def extractGraph [Add ω] (extract : TextUnitInput → Except GraphLoomError (RawRecords ω))
    (textUnits : List TextUnitInput) (concurrency : ℕ) :
    System (ExtractGraphState ω) ExtractGraphAction where
  init s := s = ⟨.full textUnits.zipIdx, 0, [], [], none⟩
  step := ExtractGraphStep extract concurrency textUnits.length

end Extracting

end GraphLoom.Graph
