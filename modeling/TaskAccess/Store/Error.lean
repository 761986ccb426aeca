import TaskAccess.Fault

/-!
# Failures of the store

## Main definitions

* `StoreError` — why a call of the store has no result.
* `StoreError.message` — the report.
-/

namespace TaskAccess

/-- Why a call of the store has no result. -/
inductive StoreError
  /-- The database finds nothing to work on. -/
  | nothingFound
  /-- No connection was to be had in time. -/
  | noConnection
  | noSuchRecord (id : Uuid)
  | severalRecords (count : Nat)
  | fault (f : Fault)
  deriving DecidableEq, Repr

/-- The report of a failure.  Records are called what `label` makes of their ids. -/
def StoreError.message (label : Uuid → String) : StoreError → String
  | nothingFound => "Database error: Record not found"
  | noConnection => "Pool error: Timed out in bb8"
  | noSuchRecord id => "Authorization not found: " ++ label id
  | severalRecords count =>
    "Expected at most one authorization, found " ++ toString count
  | fault f => f.message label

end TaskAccess
