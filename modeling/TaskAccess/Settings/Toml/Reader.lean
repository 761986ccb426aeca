import TaskAccess.Settings.Toml.Scalar
import TaskAccess.Settings.Toml.Table

/-!
# Reading configuration files

A file in the TOML format is a list of lines: headers of tables, and keys with
their values.  Arrays and tables in braces may go over several lines, and a comma
may stand behind the last of their members.

## Main definitions

* `Toml.key?` — a key, as the names between its dots.
* `Toml.value?` — a value.
* `Toml.Line`, `Toml.lines?` — the lines of a file.
* `Toml.read?` — the members of the tree of a file.
-/

namespace TaskAccess.Toml

open Text

/-! ### Keys -/

/-- The characters of names that need no quotes. -/
def isBareChar (c : Char) : Bool := c.isAlphanum || c == '_' || c == '-'

/-- Reads one name of a key. -/
def name? (s : List Char) : Option (String × List Char) :=
  match s with
  | '"' :: rest => (basic? rest).map fun (text, rest) => (String.ofList text, rest)
  | '\'' :: rest => (literal? rest).map fun (text, rest) => (String.ofList text, rest)
  | _ =>
    let name := s.takeWhile isBareChar
    if name.isEmpty then none else some (String.ofList name, s.drop name.length)

/-- Reads the names of a key between dots, at most as many as there are rounds. -/
def key? : (rounds : Nat) → List Char → Option (List String × List Char)
  | 0, _ => none
  | rounds + 1, s => do
    let (name, rest) ← name? (skipSpace s)
    match skipSpace rest with
    | '.' :: more => do
      let (names, rest) ← key? rounds more
      return (name :: names, rest)
    | rest => return ([name], rest)

/-- The last name of a key, and those in front of it. -/
def splitKey? (names : List String) : Option (List String × String) :=
  names.getLast?.map fun last => (names.dropLast, last)

/-- The rest behind a comment, if there is one. -/
def skipComment? (s : List Char) : Option (List Char) :=
  match s with
  | '#' :: rest =>
    let comment := rest.takeWhile isPrintable
    let rest := rest.drop comment.length
    if rest.isEmpty || (newline? rest).isSome then some rest else none
  | _ => some s

/-- The rest behind blanks, line ends and comments, at most as many as there are
rounds. -/
def skipLines? : (rounds : Nat) → List Char → Option (List Char)
  | 0, _ => none
  | rounds + 1, s => do
    let rest ← skipComment? (skipSpace s)
    match newline? rest with
    | some more => skipLines? rounds more
    | none => return rest

/-! ### Values -/

mutual

/-- Reads a value. -/
def value? : (rounds : Nat) → List Char → Option (SettingTree × List Char)
  | 0, _ => none
  | rounds + 1, s =>
    match s with
    | '"' :: _ | '\'' :: _ => (quoted? s).map fun (text, rest) => (.text text, rest)
    | '[' :: rest => (items? rounds rest).map fun (items, rest) => (.list items, rest)
    | '\x7b' :: rest =>
      (pairs? rounds [] rest).map fun (members, rest) => (.table (membersToTrees members), rest)
    | _ => word? s

/-- Reads the items of an array up to its end. -/
def items? : (rounds : Nat) → List Char → Option (List SettingTree × List Char)
  | 0, _ => none
  | rounds + 1, s => do
    let start ← skipLines? (s.length + 1) s
    match start with
    | ']' :: rest => return ([], rest)
    | _ =>
      let (item, rest) ← value? rounds start
      match ← skipLines? (rest.length + 1) rest with
      | ',' :: more =>
        let (items, rest) ← items? rounds more
        return (item :: items, rest)
      | ']' :: more => return ([item], more)
      | _ => none

/-- Reads the members of a table in braces up to its end. -/
def pairs? : (rounds : Nat) → Members → List Char → Option (Members × List Char)
  | 0, _, _ => none
  | rounds + 1, ms, s => do
    match ← skipLines? (s.length + 1) s with
    | '\x7d' :: rest => return (ms, rest)
    | start =>
      let (names, rest) ← key? (start.length + 1) start
      let (path, key) ← splitKey? names
      let (value, rest) ← value? rounds (skipSpace (← expect? '=' rest))
      let ms ← assign? key value path ms
      match ← skipLines? (rest.length + 1) rest with
      | ',' :: more => pairs? rounds ms more
      | '\x7d' :: more => return (ms, more)
      | _ => none

end

/-! ### Lines -/

/-- A line that says something. -/
inductive Line
  | header (path : List String) (key : String)
  | element (path : List String) (key : String)
  | pair (path : List String) (key : String) (value : SettingTree)

/-- Reads the line at the start of a text; a blank one has nothing to say. -/
def line? (s : List Char) : Option (Option Line × List Char) := do
  match skipSpace s with
  | '[' :: '[' :: rest => do
    let (names, rest) ← key? (rest.length + 1) rest
    let (path, key) ← splitKey? names
    match rest with
    | ']' :: ']' :: more => return (some (.element path key), more)
    | _ => none
  | '[' :: rest => do
    let (names, rest) ← key? (rest.length + 1) rest
    let (path, key) ← splitKey? names
    return (some (.header path key), ← expect? ']' rest)
  | start => do
    let blank := start.isEmpty || start.head? = some '#' || (newline? start).isSome
    if blank then return (none, start)
    else
      let (names, rest) ← key? (start.length + 1) start
      let (path, key) ← splitKey? names
      let right := skipSpace (← expect? '=' rest)
      let (value, rest) ← value? (2 * right.length + 2) right
      return (some (.pair path key value), rest)

/-- Reads the lines of a text, at most as many as there are rounds. -/
def lines? : (rounds : Nat) → List Char → Option (List Line)
  | 0, _ => none
  | rounds + 1, s => do
    let (line, rest) ← line? s
    let rest ← skipComment? (skipSpace rest)
    let others ←
      if rest.isEmpty then some []
      else
        match newline? rest with
        | some more => lines? rounds more
        | none => none
    return line.toList ++ others

/-! ### Files -/

/-- The tables of a file so far, and the path of the header that is in force. -/
structure State where
  root : Members := []
  header : List String := []

/-- The state after a line. -/
def State.next? (s : State) : Line → Option State
  | .header path key => do
    let root ← open? path key s.root
    return { root, header := path ++ [key] }
  | .element path key => do
    let root ← append? path key s.root
    return { root, header := path ++ [key] }
  | .pair path key value => do
    let root ← inside? s.header (assign? key value path) s.root
    return { s with root }

/-- The members of the tree of a file. -/
def read? (s : String) : Option (List (String × SettingTree)) := do
  let text := match s.toList with
    | '\ufeff' :: rest => rest
    | text => text
  let found ← lines? (text.length + 1) text
  let last ← found.foldlM State.next? {}
  return membersToTrees last.root

end TaskAccess.Toml
