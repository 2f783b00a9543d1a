import GraphLoom.Foundation.Machine
import GraphLoom.Storage.Table

/-!
# Sessions

A session calls the views and the handles that it has got from a provider, in any order.  What it is
told is the value of each call or the variant of its error.
-/

namespace GraphLoom.Storage

open Foundation

inductive ErrorVariant where
  | invalidPath
  | filesystem
  | polars
  | schemaMismatch
  | tableClosed
  | missingTable
deriving DecidableEq, Repr

def StorageError.variant : StorageError → ErrorVariant
  | .invalidPath _ _ => .invalidPath
  | .filesystem _ _ => .filesystem
  | .polars _ => .polars
  | .schemaMismatch _ _ _ => .schemaMismatch
  | .tableClosed _ => .tableClosed
  | .missingTable _ => .missingTable

/-- The calls, on the views and the handles by their numbers. -/
inductive Call (δ : Type) where
  | child (view : ℕ) (nspace : Option String)
  | readDataframe (view : ℕ) (tableName : String)
  | readOptionalDataframe (view : ℕ) (tableName : String)
  | writeDataframe (view : ℕ) (tableName : String) (dataframe : δ)
  | has (view : ℕ) (tableName : String)
  | list (view : ℕ)
  | openTable (view : ℕ) (tableName : String) (truncate : Bool)
  | write (handle : ℕ) (dataframe : δ)
  | length (handle : ℕ)
  | columnNames (handle : ℕ)
  | rows (handle count : ℕ)
  | hasRow (handle : ℕ) (rowId : String)
  | close (handle : ℕ)
  | abort (handle : ℕ)
deriving DecidableEq

inductive Value (δ ν : Type) where
  | unit
  | bool (value : Bool)
  | dataframe (value : δ)
  | optionalDataframe (value : Option δ)
  | names (value : List String)
  | length (value : ℕ)
  | rows (value : List (Except ErrorVariant (List (AnyValue ν))))
  -- the number of a new view or handle
  | created (index : ℕ)
  -- there is no such view or handle
  | invalid

structure SessionState (σ π τ : Type) where
  store : σ
  views : List π
  handles : List τ

variable {σ π τ δ ν : Type}

def observe {α : Type} (result : Except StorageError α) (value : α → Value δ ν) :
    Except ErrorVariant (Value δ ν) :=
  (result.map value).mapError StorageError.variant

def onView (state : SessionState σ π τ) (view : ℕ)
    (call : π → Except ErrorVariant (Value δ ν) × SessionState σ π τ) :
    Except ErrorVariant (Value δ ν) × SessionState σ π τ :=
  match state.views[view]? with
  | none => (.ok .invalid, state)
  | some provider => call provider

def onHandle (state : SessionState σ π τ) (handle : ℕ)
    (call : τ → Except ErrorVariant (Value δ ν) × SessionState σ π τ) :
    Except ErrorVariant (Value δ ν) × SessionState σ π τ :=
  match state.handles[handle]? with
  | none => (.ok .invalid, state)
  | some table => call table

def SessionState.setHandle (state : SessionState σ π τ) (handle : ℕ) (table : τ) :
    SessionState σ π τ :=
  { state with handles := state.handles.set handle table }

def sessionStep (provider : TableProvider σ π τ δ ν) (state : SessionState σ π τ) :
    Call δ → Except ErrorVariant (Value δ ν) × SessionState σ π τ
  | .child view nspace => onView state view fun parent =>
    match provider.child parent nspace with
    | .error error => (.error error.variant, state)
    | .ok child =>
      (.ok (.created state.views.length), { state with views := state.views ++ [child] })
  | .readDataframe view tableName => onView state view fun parent =>
    (observe (provider.readDataframe parent tableName state.store) .dataframe, state)
  | .readOptionalDataframe view tableName => onView state view fun parent =>
    (observe (provider.readOptionalDataframe parent tableName state.store) .optionalDataframe, state)
  | .writeDataframe view tableName dataframe => onView state view fun parent =>
    let written := provider.writeDataframe parent tableName dataframe state.store
    (observe written.1 fun _ => .unit, { state with store := written.2 })
  | .has view tableName => onView state view fun parent =>
    (observe (provider.has parent tableName state.store) .bool, state)
  | .list view => onView state view fun parent =>
    (observe (provider.list parent state.store) .names, state)
  | .openTable view tableName truncate => onView state view fun parent =>
    match provider.openTable parent tableName truncate state.store with
    | .error error => (.error error.variant, state)
    | .ok table =>
      (.ok (.created state.handles.length), { state with handles := state.handles ++ [table] })
  | .write handle dataframe => onHandle state handle fun table =>
    let written := provider.write table dataframe
    (observe written.1 fun _ => .unit, state.setHandle handle written.2)
  | .length handle => onHandle state handle fun table =>
    (.ok (.length (provider.length table)), state)
  | .columnNames handle => onHandle state handle fun table =>
    (.ok (.names (provider.columnNames table)), state)
  | .rows handle count => onHandle state handle fun table =>
    let read := provider.rows count table
    (.ok (.rows (read.1.map (·.mapError StorageError.variant))), state.setHandle handle read.2)
  | .hasRow handle rowId => onHandle state handle fun table =>
    (observe (provider.hasRow table rowId) .bool, state)
  | .close handle => onHandle state handle fun table =>
    let closed := provider.close table state.store
    (observe closed.1 fun _ => .unit,
      { state.setHandle handle closed.2.1 with store := closed.2.2 })
  | .abort handle => onHandle state handle fun table =>
    (.ok .unit, state.setHandle handle (provider.abort table))

/-- The sessions that start with one view. -/
def session (provider : TableProvider σ π τ δ ν) (store : σ) (view : π) :
    Machine (SessionState σ π τ) (Call δ) (Except ErrorVariant (Value δ ν)) where
  init := ⟨store, [view], []⟩
  step := sessionStep provider

end GraphLoom.Storage
