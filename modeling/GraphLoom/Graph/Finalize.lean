import GraphLoom.Dataframe
import Mathlib.Data.Finset.Insert

/-!
# The final rows of a graph

The summarized entities and relationships get an id, a number and their degree.  Of several rows
with one title, or one source and target, the first is kept.

The random ids are a parameter.
-/

namespace GraphLoom.Graph

open Std

structure SummarizedEntityRow where
  title : String
  entityType : String
  description : String
  textUnitIds : List String
  frequency : ℤ
deriving DecidableEq, Repr

structure SummarizedRelationshipRow (ω : Type) where
  source : String
  target : String
  description : String
  textUnitIds : List String
  weight : ω
deriving DecidableEq, Repr

structure FinalEntityRow where
  id : String
  humanReadableId : ℤ
  title : String
  entityType : String
  description : String
  textUnitIds : List String
  frequency : ℤ
  degree : ℤ
deriving DecidableEq, Repr

structure FinalRelationshipRow (ω : Type) where
  id : String
  humanReadableId : ℤ
  source : String
  target : String
  description : String
  weight : ω
  combinedDegree : ℤ
  textUnitIds : List String
deriving DecidableEq, Repr

structure FinalizedGraph (ω : Type) where
  entities : List FinalEntityRow
  relationships : List (FinalRelationshipRow ω)
deriving DecidableEq, Repr

/-- What `Uuid::new_v4` gives the n-th row of each table. -/
structure NewIds where
  entity : ℕ → String
  relationship : ℕ → String

variable {ω : Type}

def finalizeGraphContext : String := "finalize_graph"

/-! ### Degrees -/

def sortedPair (left right : String) : String × String :=
  if left ≤ right then (left, right) else (right, left)

/-- `*degree.entry(title).or_insert(0) += 1`, for rows that are in memory and so too few for an
overflow. -/
def addDegree (degree : ExtTreeMap String ℤ) (title : String) : ExtTreeMap String ℤ :=
  degree.alter title fun found => some (found.getD 0 + 1)

/-- The pairs that were seen, and the degrees. -/
def addPair (state : Finset (String × String) × ExtTreeMap String ℤ)
    (row : SummarizedRelationshipRow ω) : Finset (String × String) × ExtTreeMap String ℤ :=
  let (left, right) := sortedPair row.source row.target
  if (left, right) ∈ state.1 then state
  else (insert (left, right) state.1, addDegree (addDegree state.2 left) right)

def degreeMap (rows : List (SummarizedRelationshipRow ω)) : ExtTreeMap String ℤ :=
  (rows.foldl addPair (∅, ∅)).2

def degreeOf (degrees : ExtTreeMap String ℤ) (title : String) : ℤ := degrees[title]?.getD 0

/-! ### Rows -/

section Rows

variable {ρ κ σ : Type} [DecidableEq κ]

/-- A row is kept when its key is new, with the number of the rows before it. -/
def finalizeRow (key : ρ → κ) (final : ℕ → ℤ → ρ → σ) (state : Finset κ × List σ) (row : ρ) :
    Except GraphLoomError (Finset κ × List σ) :=
  if key row ∈ state.1 then .ok state
  else do
    let humanReadableId ←
      usizeToI64 state.2.length finalizeGraphContext "human_readable_id"
    return (insert (key row) state.1, state.2 ++ [final state.2.length humanReadableId row])

def finalizeRows (key : ρ → κ) (final : ℕ → ℤ → ρ → σ) (rows : List ρ) :
    Except GraphLoomError (List σ) :=
  (rows.foldlM (finalizeRow key final) (∅, [])).map Prod.snd

end Rows

def finalEntity (ids : NewIds) (degrees : ExtTreeMap String ℤ) (n : ℕ) (humanReadableId : ℤ)
    (row : SummarizedEntityRow) : FinalEntityRow where
  id := ids.entity n
  humanReadableId := humanReadableId
  title := row.title
  entityType := row.entityType
  description := row.description
  textUnitIds := row.textUnitIds
  frequency := row.frequency
  degree := degreeOf degrees row.title

def finalizeEntities (ids : NewIds) (rows : List SummarizedEntityRow)
    (degrees : ExtTreeMap String ℤ) : Except GraphLoomError (List FinalEntityRow) :=
  finalizeRows SummarizedEntityRow.title (finalEntity ids degrees) rows

def SummarizedRelationshipRow.key (row : SummarizedRelationshipRow ω) : String × String :=
  (row.source, row.target)

def finalRelationship (ids : NewIds) (degrees : ExtTreeMap String ℤ) (n : ℕ) (humanReadableId : ℤ)
    (row : SummarizedRelationshipRow ω) : FinalRelationshipRow ω where
  id := ids.relationship n
  humanReadableId := humanReadableId
  source := row.source
  target := row.target
  description := row.description
  weight := row.weight
  combinedDegree := saturatingAdd (degreeOf degrees row.source) (degreeOf degrees row.target)
  textUnitIds := row.textUnitIds

def finalizeRelationships (ids : NewIds) (rows : List (SummarizedRelationshipRow ω))
    (degrees : ExtTreeMap String ℤ) : Except GraphLoomError (List (FinalRelationshipRow ω)) :=
  finalizeRows SummarizedRelationshipRow.key (finalRelationship ids degrees) rows

def finalizeGraph (ids : NewIds) (entities : List SummarizedEntityRow)
    (relationships : List (SummarizedRelationshipRow ω)) :
    Except GraphLoomError (FinalizedGraph ω) := do
  let degrees := degreeMap relationships
  let entities ← finalizeEntities ids entities degrees
  let relationships ← finalizeRelationships ids relationships degrees
  return { entities, relationships }

end GraphLoom.Graph
