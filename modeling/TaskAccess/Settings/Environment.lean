import TaskAccess.Settings.Convert

/-!
# Settings from environment variables

A variable whose name starts with that of the application and an underscore is a
setting.  In the rest of the name, two underscores separate the names on the path
to the setting; the case of letters does not matter.  An empty variable counts as
none.

## Main definitions

* `Environment` — names and values of variables.
* `Environment.settingPath?` — the path of the setting that a name stands for.
* `Environment.settingValue` — the value that a text stands for.
* `Environment.overlay` — lays the variables of an application over a tree.
-/

namespace TaskAccess

/-- Environment variables by name, in the order in which they were set. -/
abbrev Environment := List (String × String)

namespace Environment

/-- The value of a variable. -/
def get? (env : Environment) (name : String) : Option String :=
  (env.find? fun v => v.1 == name).map Prod.snd

/-- Sets a variable that is not set yet. -/
def setDefault (env : Environment) (name value : String) : Environment :=
  if (env.get? name).isSome then env else env ++ [(name, value)]

/-- The lower case of a letter, as far as it is ASCII: that of the Kelvin sign is. -/
def lowerChar (c : Char) : Char := if c = '\u212a' then 'k' else c.toLower

/-- Turns pairs of underscores into points. -/
def separate : List Char → List Char
  | '_' :: '_' :: rest => '.' :: separate rest
  | c :: rest => c :: separate rest
  | [] => []

/-- The path of the setting of an application that a name stands for. -/
def settingPath? (application name : String) : Option String :=
  let marker := application.toList.map lowerChar ++ ['_']
  let lowered := name.toList.map lowerChar
  if marker.isPrefixOf lowered then
    some (String.ofList (separate (lowered.drop marker.length)))
  else none

/-- Reads an integer of 64 bits with an optional sign. -/
def integer? (s : String) : Option Int := do
  let (negative, digits) := Decimal.splitSign s.toList
  let n ← Text.readNat? 10 digits
  let value : Int := if negative then -n else n
  if fitsWord value then some value else none

/-- The value that a text stands for: a truth value, an integer, a number, or else
the text itself. -/
def settingValue (s : String) : SettingTree :=
  let lowered := SettingTree.lower s
  if lowered = "true" then .bool true
  else if lowered = "false" then .bool false
  else
    match integer? s with
    | some n => .integer n
    | none =>
      match Decimal.read? s with
      | some x => .float x
      | none => .text s

/-- Lays the variables of an application over a tree. -/
def overlay (env : Environment) (application : String) (under : SettingTree) : SettingTree :=
  env.foldl (fun tree (name, value) =>
    match settingPath? application name with
    | none => tree
    | some path => if value.isEmpty then tree else tree.putAt path (settingValue value))
    under

end Environment

end TaskAccess
