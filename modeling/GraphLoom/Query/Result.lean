import GraphLoom.Dataframe
import GraphLoom.Foundation.TryBuffered

/-!
# Errors, usage and concurrency of queries

The loop that runs the futures of a query: the first few are started, one more is started after each
that ends well, and the first error is returned.
-/

namespace GraphLoom.Query

inductive SearchMethod where
  | basic
  | local
  | global
  | drift
deriving DecidableEq, Repr

/-- The errors of a storage, with what the system or the decoder of tables says. -/
inductive StorageError where
  | filesystem (path source : String)
  | polars (source : String)
  | invalidPath (path reason : String)
deriving DecidableEq, Repr

inductive VectorError where
  | missingIndex (indexName : String)
  | invalidDocument (indexName message : String)
  | other (message : String)
deriving DecidableEq, Repr

/-- What is wrong with a table. -/
structure QueryTableErrorDetails where
  table : String
  column : String
  expected : String
  actual : String
  row : String
  message : String
  source : Option StorageError
deriving DecidableEq, Repr

/-- The errors of queries. -/
inductive QueryError where
  | queryContext (method : SearchMethod) (operation message : String)
  | queryParse (method : SearchMethod) (operation message : String)
  | queryCompletion (method : SearchMethod) (operation model message : String)
  | queryEmbedding (method : SearchMethod) (operation model message : String)
  | queryPrompt (method : SearchMethod) (operation prompt message : String)
  | invalidQueryConfig (method : SearchMethod) (operation message : String)
  | missingQueryTable (method : SearchMethod) (operation table : String)
  | invalidQueryTable (method : SearchMethod) (operation : String)
      (details : QueryTableErrorDetails)
  | missingVectorIndex (method : SearchMethod) (operation index : String) (source : VectorError)
  | invalidVectorIndex (method : SearchMethod) (operation index : String) (source : VectorError)
  | queryRuntime (method : SearchMethod) (operation source : String)
deriving DecidableEq, Repr

/-- Usage of one category of operations. -/
structure QueryUsageCategory where
  llmCalls : ℕ
  promptTokens : ℕ
  outputTokens : ℕ
deriving DecidableEq, Repr

/-- `Default::default`. -/
def QueryUsageCategory.none : QueryUsageCategory := ⟨0, 0, 0⟩

def QueryUsageCategory.saturatingAdd (a b : QueryUsageCategory) : QueryUsageCategory where
  llmCalls := usizeAdd a.llmCalls b.llmCalls
  promptTokens := usizeAdd a.promptTokens b.promptTokens
  outputTokens := usizeAdd a.outputTokens b.outputTokens

/-! ## Bounded, fail-fast concurrency -/

section Concurrency

open Foundation

universe u

variable {ι ε : Type*} {β : Type u}

/-- The state of the loop: the futures that are not started, those in flight and the results that
are there, each with its index, and what was returned. -/
structure BufferedOrdered (ι ε : Type*) (β : Type u) where
  futures : List (ι × ℕ)
  pending : List (ι × ℕ)
  completed : List (ℕ × β)
  returned : Option (Except ε (List β))

/-- The loop starts with at most `concurrency` futures in flight, and with at least one. -/
def BufferedOrdered.start (items : List ι) (concurrency : ℕ) : BufferedOrdered ι ε β where
  futures := items.zipIdx.drop (max concurrency 1)
  pending := items.zipIdx.take (max concurrency 1)
  completed := []
  returned := none

/-- A step: a future in flight completes, or none is left. -/
inductive BufferedOrderedStep (f : ι × ℕ → Except ε β) (s : BufferedOrdered ι ε β) :
    Option (ι × ℕ) → BufferedOrdered ι ε β → Prop
  | completed {before after : List (ι × ℕ)} {item : ι × ℕ} {value : β} (waits : s.returned = none)
      (pending : s.pending = before ++ item :: after) (ends : f item = .ok value) :
      BufferedOrderedStep f s (some item)
        { s with
          futures := s.futures.tail
          pending := before ++ after ++ s.futures.head?.toList
          completed := s.completed ++ [(item.2, value)] }
  | failed {before after : List (ι × ℕ)} {item : ι × ℕ} {error : ε} (waits : s.returned = none)
      (pending : s.pending = before ++ item :: after) (ends : f item = .error error) :
      BufferedOrderedStep f s (some item)
        { s with pending := before ++ after, returned := some (.error error) }
  | drained (waits : s.returned = none) (pending : s.pending = []) :
      BufferedOrderedStep f s none
        { s with
          returned := some (.ok ((s.completed.insertionSort fun a b => a.1 ≤ b.1).map Prod.snd)) }

/-- `try_buffered_ordered`, over the futures of `items`. -/
def tryBufferedOrdered (f : ι × ℕ → Except ε β) (concurrency : ℕ) (items : List ι) :
    System (BufferedOrdered ι ε β) (Option (ι × ℕ)) where
  init s := s = .start items concurrency
  step := BufferedOrderedStep f

end Concurrency

end GraphLoom.Query
