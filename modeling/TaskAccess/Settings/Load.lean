import TaskAccess.Settings.EnvironmentFile
import TaskAccess.Settings.Toml.Reader

/-!
# Loading settings

Settings come from their defaults, from a configuration file over those, and from
environment variables over both.  What is left has to make sense as settings.

## Main definitions

* `Settings.defaults` — the tree of the defaults.
* `Settings.withOverrides?` — the defaults with some settings replaced.
* `Settings.load?` — the settings of an application, from a file and the environment.
* `Settings.loadWithFile?` — the same with a file of variables for the environment.
-/

namespace TaskAccess.Settings

/-- The tree of the defaults.  There is no default address of the database. -/
def defaults : SettingTree :=
  let standard : Settings := {}
  .table
    [("database", .table
        [("max_connections", .integer standard.database.maxConnections.toNat),
          ("connect_timeout_secs", .integer standard.database.connectTimeoutSecs.toNat)]),
      ("authorization", .table
        [("enabled", .bool standard.authorization.enabled),
          ("default_task_permission", .text standard.authorization.defaultTaskPermission),
          ("enforce_specific_variable_permission",
            .bool standard.authorization.enforceSpecificVariablePermission)]),
      ("logging", .table [("level", .text standard.logging.level)])]

/-- The defaults with the settings at some paths replaced. -/
def withOverrides? (overrides : List (String × SettingTree)) : Option Settings := do
  let step (tree : SettingTree) (setting : String × SettingTree) : Option SettingTree := do
    let path ← KeyPath.read? setting.1
    return SettingTree.put setting.2 path tree
  ofTree? (← overrides.foldlM step defaults)

/-- The settings of an application from its configuration file, if there is one, and
the environment. -/
def load? (application : String) (file : Option String) (env : Environment) :
    Option Settings := do
  let members ← match file with
    | none => some []
    | some text => Toml.read? text
  let tree := members.foldl (fun tree (name, value) => tree.putAt name value) defaults
  ofTree? (env.overlay application tree)

/-- The settings of an application from its configuration file and the environment,
in which the variables of a file are set as well. -/
def loadWithFile? (application : String) (file : Option String) (env : Environment)
    (variableFile : String) : Option Settings :=
  load? application file (EnvironmentFile.load env variableFile)

end TaskAccess.Settings
