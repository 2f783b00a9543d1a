import Mathlib.Data.Finmap
import GraphLoom.Foundation.Json

/-!
# The JSON cache

Cache entries are JSON objects with a field `result`, in a namespace of a storage whose operations
succeed.  What is not JSON is deleted when it is read.
-/

namespace GraphLoom.Cache

open Foundation Json

inductive CacheError where
  | json (key : String)
deriving DecidableEq, Repr

/-- The values of one namespace of a storage. -/
abbrev Storage (β : Type) := Finmap fun _ : String => β

variable {β : Type} [Text β]

namespace JsonCache

def has (key : String) (storage : Storage β) : Bool := decide (key ∈ storage)

def get (key : String) (storage : Storage β) : Option β × Storage β :=
  if ¬ has key storage then (none, storage)
  else match storage.lookup key with
    | none => (none, storage)
    | some bytes => match Text.fromSlice bytes with
      | none => (none, storage.erase key)
      | some data => ((data.get "result").map Text.toVec, storage)

/-- The debug data lies beside the result; a null result is not stored. -/
def setWithDebug (key : String) (value : β) (debugData : Map) (storage : Storage β) :
    Except CacheError Unit × Storage β :=
  match Text.fromSlice value with
  | none => (.error (.json key), storage)
  | some .null => (.ok (), storage)
  | some value =>
    let data := Map.extend (Map.insert "result" value []) debugData
    (.ok (), storage.insert key (Text.toVec (.object data)))

def set (key : String) (value : β) (storage : Storage β) :
    Except CacheError Unit × Storage β :=
  setWithDebug key value [] storage

def delete (key : String) (storage : Storage β) : Storage β :=
  if has key storage then storage.erase key else storage

end JsonCache

end GraphLoom.Cache
