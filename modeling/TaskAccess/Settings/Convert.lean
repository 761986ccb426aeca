import TaskAccess.Decimal.Notation
import TaskAccess.Settings
import TaskAccess.Settings.Tree
import TaskAccess.Text.Digits

/-!
# Settings from trees

Values in a tree are converted to the type of the setting that they are for, as
far as that makes sense: texts to truth values and numbers, numbers to texts.  A
table of settings may also be given as the list of its values in order.

## Main definitions

* `SettingTree.toBool?`, `SettingTree.toNat?`, `SettingTree.toText?` — conversions.
* `SettingTree.fields?` — the values of a table or a list.
* `Settings.ofTree?` — the settings of a tree.
-/

namespace TaskAccess

namespace SettingTree

/-- Words for yes, other than a number. -/
def yesWords : List String := ["true", "on", "yes"]

/-- Words for no, other than a number. -/
def noWords : List String := ["false", "off", "no"]

/-- The text in lower case, as far as it is ASCII. -/
def lower (s : String) : String := String.ofList (s.toList.map Char.toLower)

/-- The truth value of a setting. -/
def toBool? : SettingTree → Option Bool
  | bool value => some value
  | integer value => some (value != 0)
  | float value => some (value != 0)
  | text value =>
    if lower value = "1" || yesWords.contains (lower value) then some true
    else if lower value = "0" || noWords.contains (lower value) then some false
    else none
  | null | list _ | table _ => none

/-- Reads digits, with an optional plus sign. -/
def unsigned? (s : String) : Option Nat :=
  match s.toList with
  | '+' :: rest => Text.readNat? 10 rest
  | digits => Text.readNat? 10 digits

/-- The natural number below `limit` of a setting. -/
def toNat? (limit : Nat) (t : SettingTree) : Option Nat := do
  let n ← match t with
    | bool value => some (if value then 1 else 0)
    | integer value => if 0 ≤ value then some value.toNat else none
    | float value => some (Decimal.roundToNat value)
    | text value =>
      if yesWords.contains (lower value) then some 1
      else if noWords.contains (lower value) then some 0
      else unsigned? value
    | null | list _ | table _ => none
  if n < limit then some n else none

/-- The text of a setting. -/
def toText? : SettingTree → Option String
  | bool value => some (if value then "true" else "false")
  | integer value => some (toString value)
  | float value => some (Decimal.write value)
  | text value => some value
  | null | list _ | table _ => none

/-- The text of a setting that may be missing. -/
def toOptionalText? : SettingTree → Option (Option String)
  | null => some none
  | t => t.toText?.map some

/-- The values of a table under the given names, or of a list in their order.  Only
in a table can a value be missing. -/
def fields? (names : List String) : SettingTree → Option (List (Option SettingTree))
  | table members => some (names.map fun name => (table members).member? name)
  | list items =>
    if items.length < names.length then none else some ((items.take names.length).map some)
  | _ => none

end SettingTree

open SettingTree

/-- The database settings of a tree. -/
def DatabaseSettings.ofTree? (t : SettingTree) : Option DatabaseSettings := do
  let [url, maxConnections, connectTimeoutSecs] ←
    t.fields? ["url", "max_connections", "connect_timeout_secs"] | none
  return {
    url := ← (url.getD .null).toOptionalText?
    maxConnections := UInt8.ofNat (← maxConnections.bind (toNat? UInt8.size))
    connectTimeoutSecs := UInt64.ofNat (← connectTimeoutSecs.bind (toNat? UInt64.size)) }

/-- The authorization settings of a tree. -/
def AuthorizationSettings.ofTree? (t : SettingTree) : Option AuthorizationSettings := do
  let [enabled, defaultTask, defaultGroupTask, enforce] ←
    t.fields?
      ["enabled", "default_task_permission", "default_group_task_permission",
        "enforce_specific_variable_permission"] | none
  return {
    enabled := ← enabled.bind toBool?
    defaultTaskPermission := ← defaultTask.bind toText?
    defaultGroupTaskPermission := ← (defaultGroupTask.getD .null).toOptionalText?
    enforceSpecificVariablePermission := ← enforce.bind toBool? }

/-- The logging settings of a tree. -/
def LoggingSettings.ofTree? (t : SettingTree) : Option LoggingSettings := do
  let [level] ← t.fields? ["level"] | none
  return { level := ← level.bind toText? }

/-- The settings of a tree. -/
def Settings.ofTree? (t : SettingTree) : Option Settings := do
  let [database, authorization, logging] ←
    t.fields? ["database", "authorization", "logging"] | none
  return {
    database := ← database.bind DatabaseSettings.ofTree?
    authorization := ← authorization.bind AuthorizationSettings.ofTree?
    logging := ← logging.bind LoggingSettings.ofTree? }

end TaskAccess
