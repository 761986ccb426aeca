/-!
# Callers

An operation is asked for by a caller: an identity that somebody has
authenticated, or the system.  Checks can be skipped for a caller; without an
identity there is nobody to check.

## Main definitions

* `Identity` — a user and the groups that the user belongs to.
* `Caller` — an identity, if there is one, and whether checks are skipped.
* `Caller.checkedIdentity?` — the identity that checks are made for.
-/

namespace TaskAccess

/-- A user and the groups that the user belongs to. -/
structure Identity where
  userId : String
  groupIds : List String := []
  deriving DecidableEq, Repr, Inhabited

/-- Who asks for an operation. -/
structure Caller where
  /-- The authenticated identity; the system has none. -/
  identity : Option Identity
  /-- Checks are made for this caller. -/
  checksEnabled : Bool := true
  deriving DecidableEq, Repr

namespace Caller

/-- The caller with an authenticated identity. -/
def authenticated (identity : Identity) : Caller := ⟨some identity, true⟩

/-- The system itself. -/
def system : Caller := ⟨none, true⟩

/-- The same caller with checks skipped. -/
def unchecked (c : Caller) : Caller := { c with checksEnabled := false }

/-- The same caller with checks made. -/
def checked (c : Caller) : Caller := { c with checksEnabled := true }

/-- The identity that checks are made for. -/
def checkedIdentity? (c : Caller) : Option Identity :=
  if c.checksEnabled then c.identity else none

end Caller

end TaskAccess
