import TaskAccess.Text.Digits

/-!
# Trees of settings

Settings come from several sources as trees of named values.  A later source is
laid over an earlier one: tables are merged key by key, anything else is replaced.

## Main definitions

* `SettingTree` — the tree.
* `fitsWord` — the integers that settings can have.
* `KeyPath`, `KeyPath.read?` — the way to a value: names between points, and
  positions in lists between brackets.
* `SettingTree.overlay` — lays a tree over another one.
* `SettingTree.put` — lays a tree over the one at the end of a path.
-/

namespace TaskAccess

/-- A tree of named values. -/
inductive SettingTree
  | null
  | bool (value : Bool)
  | integer (value : Int)
  | float (value : Float)
  | text (value : String)
  | list (items : List SettingTree)
  | table (members : List (String × SettingTree))
  deriving Inhabited

/-- The integer fits a signed word of 64 bits. -/
def fitsWord (n : Int) : Bool := Int64.minValue.toInt ≤ n && n ≤ Int64.maxValue.toInt

/-- A step into a tree. -/
inductive KeyStep
  | key (name : String)
  /-- A position in a list, from its end if it is negative. -/
  | position (n : Int)
  deriving DecidableEq, Repr

/-- The way to a value in a tree. -/
abbrev KeyPath := List KeyStep

/-! ### Reading paths -/

namespace KeyPath

/-- The characters of names in a path. -/
def isNameChar (c : Char) : Bool := c.isAlphanum || c == '_' || c == '-'

/-- Reads an integer with spaces or tabs around it. -/
def position? (s : List Char) : Option Int :=
  let isSpace (c : Char) : Bool := c == ' ' || c == '\t'
  match ((s.dropWhile isSpace).reverse.dropWhile isSpace).reverse with
  | '-' :: digits => (Text.readNat? 10 digits).map fun n => -(n : Int)
  | digits => (Text.readNat? 10 digits).map fun n => (n : Int)

/-- Reads what follows the first name: one step per round. -/
def steps? : (rounds : Nat) → List Char → Option KeyPath
  | _, [] => some []
  | 0, _ => none
  | rounds + 1, '.' :: rest =>
    let name := rest.takeWhile isNameChar
    if name.isEmpty then none
    else (steps? rounds (rest.drop name.length)).map (.key (String.ofList name) :: ·)
  | rounds + 1, '[' :: rest =>
    let inner := rest.takeWhile (· != ']')
    match rest.drop inner.length with
    | ']' :: more => do
      let n ← position? inner
      let others ← steps? rounds more
      return .position n :: others
    | _ => none
  | _, _ => none

/-- Reads a path. -/
def read? (s : String) : Option KeyPath :=
  let name := s.toList.takeWhile isNameChar
  if name.isEmpty then none
  else (steps? s.length (s.toList.drop name.length)).map (.key (String.ofList name) :: ·)

end KeyPath

/-! ### Laying trees over each other -/

namespace SettingTree

/-- The members of a table; nothing else has any. -/
def members : SettingTree → List (String × SettingTree)
  | table members => members
  | _ => []

/-- The items of a list; nothing else has any. -/
def items : SettingTree → List SettingTree
  | list items => items
  | _ => []

/-- The member of a name. -/
def member? (t : SettingTree) (name : String) : Option SettingTree :=
  (t.members.find? fun m => m.1 == name).map Prod.snd

/-- Changes the member of a name, which is added if it is missing. -/
def changeMember (name : String) (f : SettingTree → SettingTree) :
    List (String × SettingTree) → List (String × SettingTree)
  | [] => [(name, f null)]
  | (k, v) :: rest => if k = name then (k, f v) :: rest else (k, v) :: changeMember name f rest

/-- Changes the item at a position, up to which a list is filled with nulls. -/
def changeItem (n : Int) (f : SettingTree → SettingTree) (items : List SettingTree) :
    List SettingTree :=
  if 0 ≤ n then
    let filled := items ++ List.replicate (n.toNat + 1 - items.length) null
    filled.modify n.toNat f
  else
    let before := (-n).toNat
    let filled := List.replicate (before - items.length) null ++ items
    filled.modify (filled.length - before) f

mutual

/-- Lays a tree over another one. -/
def overlay (under : SettingTree) : SettingTree → SettingTree
  | table members => table (overlayMembers under.members members)
  | other => other

/-- Lays members over those of a table. -/
def overlayMembers (under : List (String × SettingTree)) :
    List (String × SettingTree) → List (String × SettingTree)
  | [] => under
  | (name, value) :: rest =>
    overlayMembers (changeMember name (fun old => overlay old value) under) rest

end

/-- Lays a tree over the one at the end of a path.  What stands in the way of the
path is replaced. -/
def put (value : SettingTree) : KeyPath → SettingTree → SettingTree
  | [], under => overlay under value
  | .key name :: rest, under => table (changeMember name (put value rest) under.members)
  | .position n :: rest, under => list (changeItem n (put value rest) under.items)

/-- Lays a tree over the one at the end of a path that is given as text.  What is no
path is a name. -/
def putAt (under : SettingTree) (path : String) (value : SettingTree) : SettingTree :=
  put value ((KeyPath.read? path).getD [.key path]) under

end SettingTree

end TaskAccess
