import TaskAccess.Task.Gate

/-!
# Connecting to the database

The gate over a database needs a pool of connections, a first connection, and the
configured grants, in this order.  The pool is built without a connection; none is
ever to be had, because no database can be reached from here.

## Main definitions

* `Pool`, `Pool.ofSettings` — the pool that is configured.
* `ConnectError` — why there is no gate over the database.
* `TaskGate.connect` — the gate over the database.
-/

namespace TaskAccess

/-- A pool of connections, which are opened when they are wanted. -/
structure Pool where
  /-- The largest number of connections. -/
  maxSize : Nat
  /-- The number of idle connections to keep, if any. -/
  minIdle : Option Nat := none
  /-- The seconds to wait for a connection. -/
  connectionTimeoutSecs : UInt64
  /-- Connections are tried before they are handed out. -/
  testOnCheckOut : Bool := false
  /-- The number of open connections. -/
  connections : Nat := 0
  deriving DecidableEq, Repr

/-- Why there is no gate over the database. -/
inductive ConnectError
  | fault (f : Fault)
  /-- The pool cannot be built to wait for no time at all. -/
  | noTimeToWait
  | store (e : StoreError)
  | access (e : AccessError)
  deriving DecidableEq, Repr

/-- The pool that is configured, of one connection at least. -/
def Pool.ofSettings (d : DatabaseSettings) : Except ConnectError Pool := do
  let _ ← d.requireUrl.mapError .fault
  if d.connectTimeoutSecs = 0 then throw .noTimeToWait
  return { maxSize := max 1 d.maxConnections.toNat
           connectionTimeoutSecs := d.connectTimeoutSecs }

/-- The gate over the database, and the store behind it. -/
def TaskGate.connect (d : DatabaseSettings) (a : AuthorizationSettings) :
    Except ConnectError (TaskGate × Store) := do
  let _ ← Pool.ofSettings d
  let store := Store.unreachable
  store.connect.mapError .store
  let gate ← (TaskGate.ofSettings a).mapError .access
  return (gate, store)

end TaskAccess
