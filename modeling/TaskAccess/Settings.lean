import TaskAccess.Permission.Lookup

/-!
# Settings

What is configured: the database, the authorization of tasks, and logging.

## Main definitions

* `Settings`, `DatabaseSettings`, `AuthorizationSettings`, `LoggingSettings`.
* `DatabaseSettings.requireUrl` — the address, which nothing can do without.
* `AuthorizationSettings.taskPermission`, `AuthorizationSettings.groupTaskPermission`
  — the permissions that linked users and groups are granted.
-/

namespace TaskAccess

/-- How the database is reached. -/
structure DatabaseSettings where
  /-- The address of the database. -/
  url : Option String := none
  /-- The size of the pool. -/
  maxConnections : UInt8 := 4
  /-- The seconds to wait for a connection. -/
  connectTimeoutSecs : UInt64 := 30
  deriving DecidableEq, Repr

/-- The address of the database, which nothing can do without. -/
def DatabaseSettings.requireUrl (d : DatabaseSettings) : Except Fault String :=
  match d.url with
  | some url => .ok url
  | none => .error .missingDatabaseUrl

/-- How tasks are authorized. -/
structure AuthorizationSettings where
  /-- Callers are checked; authorizations are granted in any case. -/
  enabled : Bool := true
  /-- The name of the permission that linked users are granted. -/
  defaultTaskPermission : String := Permission.taskWork.name
  /-- The name of the permission that linked groups are granted, if it is another one. -/
  defaultGroupTaskPermission : Option String := none
  /-- Variables are read under a permission of their own. -/
  enforceSpecificVariablePermission : Bool := false
  deriving DecidableEq, Repr

namespace AuthorizationSettings

/-- The permission that linked users are granted. -/
def taskPermission (a : AuthorizationSettings) : Except Fault Permission :=
  Permission.forResource a.defaultTaskPermission .task

/-- The permission that linked groups are granted. -/
def groupTaskPermission (a : AuthorizationSettings) : Except Fault Permission :=
  match a.defaultGroupTaskPermission with
  | some name => Permission.forResource name .task
  | none => a.taskPermission

end AuthorizationSettings

/-- What is logged. -/
structure LoggingSettings where
  level : String := "info"
  deriving DecidableEq, Repr

/-- All that is configured. -/
structure Settings where
  database : DatabaseSettings := {}
  authorization : AuthorizationSettings := {}
  logging : LoggingSettings := {}
  deriving DecidableEq, Repr

end TaskAccess
