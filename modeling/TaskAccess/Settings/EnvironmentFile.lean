import TaskAccess.Settings.Environment
import TaskAccess.Text.Blank

/-!
# Files of environment variables

A file of variables has one per line, as a name, an equals sign and a value.
Values may be quoted, in full or in part, and may then go over several lines; they
may refer to other variables behind a dollar sign.  Comments start with a number
sign.  The first line that is malformed ends the file.

## Main definitions

* `EnvironmentFile.lines` — the lines, where one that ends inside quotes goes on.
* `EnvironmentFile.value?` — the value that the right side of a line stands for.
* `EnvironmentFile.entry?` — the variable that a line sets.
* `EnvironmentFile.load` — sets the variables of a file that are not set yet.
-/

namespace TaskAccess.EnvironmentFile

open Text

/-! ### Lines -/

/-- What a line has come to, as far as the end of the line depends on it. -/
inductive LineState
  | plain
  | escape
  | single
  | singleEscape
  | double
  | doubleEscape
  /-- Right after a blank, where a comment can start. -/
  | blank
  | comment
  deriving DecidableEq, Repr

/-- The state after a character. -/
def LineState.next (state : LineState) (c : Char) : LineState :=
  let opened : LineState :=
    match c with
    | '\\' => escape
    | '"' => double
    | '\'' => single
    | _ => plain
  match state with
  | plain => if isBlank c && c != '\n' && c != '\r' then blank else opened
  | blank => if c = '#' then comment else opened
  | escape => plain
  | single => if c = '\\' then singleEscape else if c = '\'' then plain else single
  | singleEscape => single
  | double => if c = '\\' then doubleEscape else if c = '"' then plain else double
  | doubleEscape => double
  | comment => comment

/-- The state at the end of a piece of text, and the text before a comment. -/
def scan (state : LineState) : List Char → LineState × List Char
  | [] => (state, [])
  | c :: rest =>
    match state.next c with
    | .comment => (.comment, [])
    | next =>
      let (last, kept) := scan next rest
      (last, c :: kept)

/-- The lines of a text with their line ends. -/
def physicalLines : List Char → List (List Char)
  | [] => []
  | c :: rest =>
    if c = '\n' then [c] :: physicalLines rest
    else
      match physicalLines rest with
      | [] => [[c]]
      | line :: others => (c :: line) :: others

/-- A line without its line end. -/
def chomp (line : List Char) : List Char :=
  match line.reverse with
  | '\n' :: '\r' :: rest => rest.reverse
  | '\n' :: rest => rest.reverse
  | _ => line

/-- Joins lines that end inside quotes with the next ones; a text that ends in the
middle of a line has a last line that is malformed. -/
def joinLines (state : LineState) (pending : List Char) :
    List (List Char) → List (Option (List Char))
  | [] => if state = .plain then [] else [none]
  | line :: rest =>
    let whole := pending ++ line
    if (trimStart whole).head? = some '#' then some [] :: joinLines .plain [] rest
    else
      match scan state line with
      | (.plain, _) => some (chomp whole) :: joinLines .plain [] rest
      | (.comment, kept) => some (pending ++ kept) :: joinLines .plain [] rest
      | (next, _) => joinLines next whole rest

/-- The lines of a file. -/
def lines (s : String) : List (Option (List Char)) :=
  let text := match s.toList with
    | '\ufeff' :: rest => rest
    | text => text
  joinLines .plain [] (physicalLines text)

/-! ### Values -/

/-- Whether the name of a variable is being read, and how it ends. -/
inductive Reference
  | no
  /-- Behind a dollar sign; the name ends with its letters and digits. -/
  | bare
  /-- In braces. -/
  | braced
  deriving DecidableEq, Repr

/-- What the reading of a value has come to. -/
structure ValueState where
  single : Bool := false
  double : Bool := false
  escaped : Bool := false
  /-- Only a comment can follow. -/
  ended : Bool := false
  reference : Reference := .no
  /-- The name of a variable so far. -/
  name : List Char := []
  /-- The value so far. -/
  value : List Char := []

/-- The value with that of the named variable behind it. -/
def ValueState.resolve (lookup : String → Option String) (s : ValueState) : ValueState :=
  { s with name := [], value := s.value ++ ((lookup (String.ofList s.name)).getD "").toList }

/-- The value with a character behind it. -/
def ValueState.push (s : ValueState) (c : Char) : ValueState :=
  { s with value := s.value ++ [c] }

/-- The characters that a bare name goes on with. -/
def isNameChar (c : Char) : Bool := c.isAlphanum || (c.toNat ≥ 128 && !isBlank c)

/-- Reads the rest of a value. -/
def finish? (lookup : String → Option String) : ValueState → List Char → Option (List Char)
  | s, [] =>
    if s.reference = .braced || s.single || s.double then none
    else some (s.resolve lookup).value
  | s, c :: rest =>
    if s.ended then
      if c = ' ' || c = '\t' then finish? lookup s rest
      else if c = '#' then some (s.resolve lookup).value
      else none
    else if s.escaped then
      let s := { s with escaped := false }
      if c = 'n' then finish? lookup (s.push '\n') rest
      else if c = '\\' || c = '\'' || c = '"' || c = '$' || c = ' ' then
        finish? lookup (s.push c) rest
      else none
    else if s.single then
      finish? lookup (if c = '\'' then { s with single := false } else s.push c) rest
    else
      match s.reference with
      | .bare =>
        if isNameChar c then finish? lookup { s with name := s.name ++ [c] } rest
        else if c = '\x7b' && s.name.isEmpty then
          finish? lookup { s with reference := .braced } rest
        else if c = '$' then finish? lookup (s.resolve lookup) rest
        else finish? lookup ({ s.resolve lookup with reference := .no }.push c) rest
      | .braced =>
        if c = '\x7d' then finish? lookup { s.resolve lookup with reference := .no } rest
        else finish? lookup { s with name := s.name ++ [c] } rest
      | .no =>
        if c = '$' then finish? lookup { s with reference := .bare } rest
        else if c = '\\' then finish? lookup { s with escaped := true } rest
        else if s.double then
          finish? lookup (if c = '"' then { s with double := false } else s.push c) rest
        else if c = '\'' then finish? lookup { s with single := true } rest
        else if c = '"' then finish? lookup { s with double := true } rest
        else if c = ' ' || c = '\t' then finish? lookup { s with ended := true } rest
        else finish? lookup (s.push c) rest

/-- The value that the right side of a line stands for. -/
def value? (lookup : String → Option String) (s : List Char) : Option (List Char) :=
  finish? lookup {} s

/-! ### Entries -/

/-- The name at the start of a text, and the rest behind blanks. -/
def key? (s : List Char) : Option (List Char × List Char) :=
  match s with
  | c :: _ =>
    if c.isAlpha || c = '_' then
      let name := s.takeWhile fun c => c.isAlphanum || c == '_' || c == '.'
      some (name, trimStart (s.drop name.length))
    else none
  | [] => none

/-- Removes an equals sign and the blanks behind it. -/
def afterEquals? : List Char → Option (List Char)
  | '=' :: rest => some (trimStart rest)
  | _ => none

/-- A line has no entry, or one, or is malformed.  A name may stand behind the word
`export`, which can be a name itself. -/
def entry? (lookup : String → Option String) (line : List Char) :
    Option (Option (String × String)) := do
  let s := trimStart (trimEnd line)
  if s.isEmpty || s.head? = some '#' then return none
  let (name, rest) ← key? s
  let (name, right) ←
    match afterEquals? rest with
    | some right => some (name, right)
    | none =>
      if name = "export".toList then do
        let (name, rest) ← key? rest
        let right ← afterEquals? rest
        some (name, right)
      else none
  let value ←
    if right.isEmpty || right.head? = some '#' then some [] else value? lookup right
  return some (String.ofList name, String.ofList value)

/-- Sets the variables of lines that are not set yet, up to a malformed line. -/
def loadLines (env : Environment) : List (Option (List Char)) → Environment
  | [] | none :: _ => env
  | some line :: rest =>
    match entry? env.get? line with
    | none => env
    | some none => loadLines env rest
    | some (some (name, value)) => loadLines (env.setDefault name value) rest

/-- Sets the variables of a file that are not set yet. -/
def load (env : Environment) (file : String) : Environment := loadLines env (lines file)

end TaskAccess.EnvironmentFile
