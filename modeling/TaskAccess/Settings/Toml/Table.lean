import TaskAccess.Settings.Tree

/-!
# Tables of configuration files

A table of the TOML format is opened once by a header, or by the keys in it, or
comes about because a header names a table below it.  How it came about decides
what may be added to it later.

## Main definitions

* `Toml.Node`, `Toml.Opening` — the tables while they are read.
* `Toml.assign?` — sets a key of a table, with the tables that dots in it open.
* `Toml.open?`, `Toml.append?` — what the headers of a table and of an array of
  tables do.
* `Toml.inside?` — does something inside the table that a header has opened.
* `Toml.Node.toTree` — the tree of a table.
-/

namespace TaskAccess.Toml

/-- How a table came about. -/
inductive Opening
  /-- By a header of its own. -/
  | header
  /-- By a header of a table below it. -/
  | implied
  /-- By a key with dots in it. -/
  | dotted
  deriving DecidableEq, Repr

/-- What a key stands for while a file is read. -/
inductive Node
  /-- A value that nothing can be added to. -/
  | leaf (value : SettingTree)
  | table (opening : Opening) (members : List (String × Node))
  /-- An array of tables, of which the last one is open. -/
  | tables (elements : List (List (String × Node)))
  deriving Inhabited

/-- The members of a table. -/
abbrev Members := List (String × Node)

/-- The member of a name. -/
def member? (ms : Members) (name : String) : Option Node :=
  (ms.find? fun m => m.1 == name).map Prod.snd

/-- Sets the member of a name, in its place if there is one. -/
def setMember (name : String) (node : Node) : Members → Members
  | [] => [(name, node)]
  | (k, v) :: rest => if k = name then (k, node) :: rest else (k, v) :: setMember name node rest

/-- Changes the last table of an array. -/
def changeLast? (f : Members → Option Members) :
    List Members → Option (List Members)
  | [] => none
  | [last] => (f last).map fun changed => [changed]
  | first :: rest => (changeLast? f rest).map (first :: ·)

/-- Sets a key behind the names of tables that its dots open.  Such a table is new
or was opened by dots before. -/
def assign? (key : String) (value : SettingTree) : List String → Members → Option Members
  | [], ms => if (member? ms key).isSome then none else some (ms ++ [(key, .leaf value)])
  | name :: rest, ms => do
    let node ← match member? ms name with
      | none => (assign? key value rest []).map (Node.table .dotted)
      | some (.table opening sub) =>
        if opening = .header || (opening = .implied && rest.isEmpty) then none
        else (assign? key value rest sub).map (Node.table opening)
      | some (.tables elements) =>
        if rest.isEmpty then none
        else (changeLast? (assign? key value rest) elements).map Node.tables
      | some (.leaf _) => none
    return setMember name node ms

/-- Goes to the table at the end of a path of headers, and makes those on the way
that are missing. -/
def descend? (atEnd : Members → Option Members) : List String → Members → Option Members
  | [], ms => atEnd ms
  | name :: rest, ms => do
    let node ← match member? ms name with
      | none => (descend? atEnd rest []).map (Node.table .implied)
      | some (.table opening sub) => (descend? atEnd rest sub).map (Node.table opening)
      | some (.tables elements) =>
        (changeLast? (descend? atEnd rest) elements).map Node.tables
      | some (.leaf _) => none
    return setMember name node ms

/-- Opens a table by a header. -/
def open? (path : List String) (key : String) : Members → Option Members :=
  descend? (fun ms =>
    match member? ms key with
    | none => some (setMember key (.table .header []) ms)
    | some (.table .implied sub) => some (setMember key (.table .header sub) ms)
    | some _ => none)
    path

/-- Opens a further table of an array by a header. -/
def append? (path : List String) (key : String) : Members → Option Members :=
  descend? (fun ms =>
    match member? ms key with
    | none => some (setMember key (.tables [[]]) ms)
    | some (.tables elements) => some (setMember key (.tables (elements ++ [[]])) ms)
    | some _ => none)
    path

/-- Does something inside the table that a header has opened. -/
def inside? (header : List String) (f : Members → Option Members) : Members → Option Members :=
  descend? f header

mutual

/-- The tree of what a key stands for. -/
def Node.toTree : Node → SettingTree
  | .leaf value => value
  | .table _ members => .table (membersToTrees members)
  | .tables elements => .list (elementsToTrees elements)

/-- The trees of the members of a table. -/
def membersToTrees : List (String × Node) → List (String × SettingTree)
  | [] => []
  | (name, node) :: rest => (name, node.toTree) :: membersToTrees rest

/-- The trees of the tables of an array. -/
def elementsToTrees : List (List (String × Node)) → List SettingTree
  | [] => []
  | members :: rest => .table (membersToTrees members) :: elementsToTrees rest

end

end TaskAccess.Toml
