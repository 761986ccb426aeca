import TaskAccess.Resource
import TaskAccess.Uuid

/-!
# Faults of configuration and data

What can be wrong with a setting, a record, a row or a permission name before any
decision is taken, and the text that reports it.

## Main definitions

* `RecordDefect` — why a record is not well-formed.
* `Fault` — what is wrong, with the offending part.
* `Fault.message` — the report.
-/

namespace TaskAccess

/-- Why a record is not well-formed. -/
inductive RecordDefect
  /-- The record names a user and a group, or neither. -/
  | notOneHolder
  /-- A global record names somebody other than every user. -/
  | globalForSomebody
  /-- The user or group has the empty id. -/
  | emptyHolder
  /-- The resource has the empty id. -/
  | emptyResource
  deriving DecidableEq, Repr

/-- What is wrong with a setting, a record, a row or a name. -/
inductive Fault
  | missingDatabaseUrl
  | malformedRecord (id : Uuid) (defect : RecordDefect)
  | unknownRecordKind (id : Int32)
  | unknownResourceType (id : Int32)
  | unknownPermission (name : String) (resourceType : ResourceType)
  deriving DecidableEq, Repr

/-- The report of a defect of the record with the given name. -/
def RecordDefect.message (record : String) : RecordDefect → String
  | notOneHolder => "authorization " ++ record ++ " must name exactly one of user or group"
  | globalForSomebody =>
    "global authorization " ++ record ++ " must apply to user " ++ wildcard
  | emptyHolder => "authorization " ++ record ++ " has an empty user or group id"
  | emptyResource => "authorization " ++ record ++ " has an empty resource id"

/-- The report of a fault.  Records are called what `label` makes of their ids. -/
def Fault.message (label : Uuid → String) : Fault → String
  | missingDatabaseUrl => "Configuration error: database.url is not set"
  | malformedRecord id defect => "Validation error: " ++ defect.message (label id)
  | unknownRecordKind id => "Invalid input: unknown authorization type id " ++ toString id.toInt
  | unknownResourceType id => "Invalid input: unknown resource type id " ++ toString id.toInt
  | unknownPermission name resourceType =>
    "Unknown permission '" ++ name ++ "' for resource type '" ++ resourceType.name ++ "'"

end TaskAccess
