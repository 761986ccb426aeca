import TaskAccess.Query
import TaskAccess.Store.Error
import TaskAccess.Store.Ledger

/-!
# The store of authorization records

A store keeps its records in memory, or in a database that cannot be reached.  It
can be told to fail chosen calls, which then do nothing else.  Reading is a
function of the store; what changes the store is an action on it, and an action
that fails says what it left behind.

What is written is handed to the store in memory or to the one over a database, which go
about it in their own ways.  Of a record that is given to them both look at the shape first;
then the one looks at the other records, and the other waits for a connection.

## Main definitions

* `Store`, `StoreCall` — the store, and the calls that it answers.
* `Action` — a computation that may change the store and may fail.
* `Store.find`, `Store.findSingle`, `Store.get?` — reading.
* `Store.saveInMemory`, `Store.updateInMemory`, `Store.deleteInMemory`,
  `Store.deleteForResourceInMemory` — writing to the store in memory.
* `Store.writeInDatabase` — writing to the store over a database.
* `Store.save`, `Store.update`, `Store.delete`, `Store.deleteForResource` — writing.
* `Store.mintId` — a new identifier.

## Main results

* `Action.run_bind` and its companions — how actions compose.
-/

namespace TaskAccess

/-- The calls that a store can be told to fail. -/
inductive StoreCall
  | save
  | update
  | delete
  | deleteForResource
  | find
  deriving DecidableEq, Repr

/-- Where the records of a store are. -/
inductive Backend
  | memory
  /-- A database that no connection can be had to. -/
  | unreachable
  deriving DecidableEq, Repr, Inhabited

/-- A store of authorization records. -/
structure Store where
  /-- The records in memory. -/
  ledger : Ledger := []
  /-- Where the records are. -/
  backend : Backend := .memory
  /-- The calls that fail. -/
  failing : List StoreCall := []
  /-- What they fail with. -/
  failure : StoreError := .nothingFound
  /-- The number of identifiers handed out. -/
  minted : Nat := 0
  deriving DecidableEq, Repr

/-- A computation that may change the store and may fail.  It leaves a store
behind in either case. -/
def Action (ε α : Type) : Type := Store → Except ε α × Store

namespace Action

variable {ε ε' α β : Type}

/-- Runs an action on a store. -/
def run (a : Action ε α) (s : Store) : Except ε α × Store := a s

instance : Monad (Action ε) where
  pure a := fun s => (.ok a, s)
  bind a f := fun s =>
    match a s with
    | (.ok x, s) => f x s
    | (.error e, s) => (.error e, s)

/-- The action that reads the store and leaves it as it is. -/
def reading (f : Store → Except ε α) : Action ε α := fun s => (f s, s)

/-- The action that fails if the computation does, and leaves the store as it is. -/
def ofExcept (x : Except ε α) : Action ε α := fun s => (x, s)

/-- The action that changes the records. -/
def modifyLedger (f : Ledger → Ledger) : Action ε Unit :=
  fun s => (.ok (), { s with ledger := f s.ledger })

/-- The action with its errors wrapped. -/
def mapError (wrap : ε → ε') (a : Action ε α) : Action ε' α := fun s =>
  match a s with
  | (x, s) => (x.mapError wrap, s)

@[simp] theorem run_pure (x : α) (s : Store) : run (pure x : Action ε α) s = (.ok x, s) := rfl

theorem run_bind (a : Action ε α) (f : α → Action ε β) (s : Store) :
    run (a >>= f) s =
      match run a s with
      | (.ok x, s) => run (f x) s
      | (.error e, s) => (.error e, s) := rfl

@[simp] theorem run_reading (f : Store → Except ε α) (s : Store) :
    run (reading f) s = (f s, s) := rfl

@[simp] theorem run_ofExcept (x : Except ε α) (s : Store) : run (ofExcept x) s = (x, s) := rfl

@[simp] theorem run_modifyLedger (f : Ledger → Ledger) (s : Store) :
    run (modifyLedger f : Action ε Unit) s = (.ok (), { s with ledger := f s.ledger }) := rfl

@[simp] theorem run_mapError (wrap : ε → ε') (a : Action ε α) (s : Store) :
    run (mapError wrap a) s = ((run a s).1.mapError wrap, (run a s).2) := rfl

end Action

namespace Store

/-- A store in memory that holds the records and answers every call. -/
def ofLedger (l : Ledger) : Store := { ledger := l }

/-- A store over a database that cannot be reached. -/
def unreachable : Store := { backend := .unreachable }

/-- Every call is answered from memory. -/
structure Works (s : Store) : Prop where
  in_memory : s.backend = .memory
  none_failing : s.failing = []

/-- Fails the calls that the store was told to fail. -/
def accept (s : Store) (call : StoreCall) : Except StoreError Unit :=
  if call ∈ s.failing then .error s.failure else .ok ()

/-- Waits for a connection to the database, in vain. -/
def awaitConnection {α : Type} : Except StoreError α := .error .noConnection

/-- What comes before the records are read: in memory nothing does. -/
def connect (s : Store) : Except StoreError Unit :=
  match s.backend with
  | .memory => .ok ()
  | .unreachable => awaitConnection

/-! ### Reading -/

/-- The records that a query selects, in the order of the ledger. -/
def find (s : Store) (q : Query) : Except StoreError (List Record) := do
  s.accept .find
  s.connect
  return s.ledger.filter q.selects

/-- The one record that a query selects, if there is any. -/
def findSingle (s : Store) (q : Query) : Except StoreError (Option Record) := do
  match ← s.find q with
  | [] => return none
  | [r] => return some r
  | found => throw (.severalRecords found.length)

/-- The record with an id. -/
def get? (s : Store) (id : Uuid) : Except StoreError (Option Record) := do
  s.connect
  return s.ledger.find? fun r => r.id == id

/-! ### Writing -/

/-- Refuses a record that is not well-formed. -/
def refuseMalformed (r : Record) : Except StoreError Unit := r.validate.mapError .fault

/-- Merges a record into its slot in memory, and answers what the slot holds then. -/
def saveInMemory (r : Record) : Action StoreError Record := do
  let stored ← .reading fun s => do
    refuseMalformed r
    return s.ledger.inserted r
  .modifyLedger fun l => l.insert r
  return stored

/-- Puts a record in the place of the one with its id in memory. -/
def updateInMemory (r : Record) : Action StoreError Record := do
  let replaced ← .reading fun s => do
    refuseMalformed r
    match s.ledger.replace? r with
    | some l => return l
    | none => throw (.noSuchRecord r.id)
  .modifyLedger fun _ => replaced
  return r

/-- Drops the records with an id in memory, and answers whether there were any. -/
def deleteInMemory (id : Uuid) : Action StoreError Bool := do
  let found ← .reading fun s => return s.ledger.any fun r => r.id == id
  .modifyLedger fun l => l.eraseId id
  return found

/-- Drops the records of a resource id in memory, and answers how many there were. -/
def deleteForResourceInMemory (resourceId : String) : Action StoreError Nat := do
  let count ← .reading fun s => return s.ledger.countP fun r => r.resourceId == resourceId
  .modifyLedger fun l => l.eraseResource resourceId
  return count

/-- Looks at a record, and waits for a connection to write it with, be it merged into its slot
or put in the place of the one with its id. -/
def writeInDatabase (r : Record) : Action StoreError Record := .ofExcept do
  refuseMalformed r
  awaitConnection

/-- Accepts a call, and hands it to the store that keeps the records. -/
def dispatch {α : Type} (call : StoreCall) (inMemory inDatabase : Action StoreError α) :
    Action StoreError α := do
  let backend ← .reading fun s => do
    s.accept call
    return s.backend
  match backend with
  | .memory => inMemory
  | .unreachable => inDatabase

/-- Merges a record into its slot, and answers what the slot holds then. -/
def save (r : Record) : Action StoreError Record :=
  dispatch .save (saveInMemory r) (writeInDatabase r)

/-- Puts a record in the place of the one with its id. -/
def update (r : Record) : Action StoreError Record :=
  dispatch .update (updateInMemory r) (writeInDatabase r)

/-- Drops the records with an id, and answers whether there were any. -/
def delete (id : Uuid) : Action StoreError Bool :=
  dispatch .delete (deleteInMemory id) (.ofExcept awaitConnection)

/-- Drops the records of a resource id, and answers how many there were. -/
def deleteForResource (resourceId : String) : Action StoreError Nat :=
  dispatch .deleteForResource (deleteForResourceInMemory resourceId) (.ofExcept awaitConnection)

/-- A new identifier. -/
def mintId {ε : Type} : Action ε Uuid :=
  fun s => (.ok (Uuid.numbered s.minted), { s with minted := s.minted + 1 })

@[simp] theorem run_mintId {ε : Type} (s : Store) :
    Action.run (mintId : Action ε Uuid) s
      = (.ok (Uuid.numbered s.minted), { s with minted := s.minted + 1 }) := rfl

end Store

end TaskAccess
