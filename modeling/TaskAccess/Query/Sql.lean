import TaskAccess.Query
import TaskAccess.Record.Row

/-!
# Queries in SQL

The statement that asks the authorization table for the records of a query, with
numbered placeholders for the values, and its meaning in three-valued logic: a
comparison with a missing value is neither true nor false, and only rows for which
the condition is true are selected.

## Main definitions

* `Sql.Condition` — comparisons of columns with values, joined by `AND` and `OR`.
* `Sql.Condition.render`, `Sql.Condition.binds` — its text and its values in order.
* `Sql.Condition.eval` — its truth on a row.
* `Sql.Statement`, `Query.statement`, `Sql.Statement.byId` — the statements.
* `Sql.Statement.selects` — the statement selects a row.
-/

namespace TaskAccess

namespace Sql

/-- A column of the authorization table. -/
inductive Column
  | id
  | kind
  | resourceType
  | resourceId
  | permissions
  | userId
  | groupId
  deriving DecidableEq, Repr

/-- The columns in the order of the table. -/
def Column.values : List Column :=
  [.id, .kind, .resourceType, .resourceId, .permissions, .userId, .groupId]

/-- The name of the table in quotes. -/
def tableName : String := "\"authorization_record\""

/-- The name of a column. -/
def Column.name : Column → String
  | id => "id"
  | kind => "authorization_type"
  | resourceType => "resource_type"
  | resourceId => "resource_id"
  | permissions => "permissions"
  | userId => "user_id"
  | groupId => "group_id"

/-- The quoted name of a column behind that of its table. -/
def Column.render (c : Column) : String := tableName ++ ".\"" ++ c.name ++ "\""

/-- A column of numbers that statements restrict. -/
inductive NumberColumn
  | kind
  | resourceType
  deriving DecidableEq, Repr

/-- A column of texts that statements restrict. -/
inductive TextColumn
  | resourceId
  | userId
  | groupId
  deriving DecidableEq, Repr

/-- The column in the table. -/
def NumberColumn.column : NumberColumn → Column
  | kind => .kind
  | resourceType => .resourceType

/-- The column in the table. -/
def TextColumn.column : TextColumn → Column
  | resourceId => .resourceId
  | userId => .userId
  | groupId => .groupId

/-- The number in a column of a row. -/
def NumberColumn.read (row : Row) : NumberColumn → Int32
  | kind => row.kind
  | resourceType => row.resourceType

/-- The text in a column of a row, if it is not missing. -/
def TextColumn.read (row : Row) : TextColumn → Option String
  | resourceId => some row.resourceId
  | userId => row.userId
  | groupId => row.groupId

/-- A value bound to a placeholder. -/
inductive Bind
  | number (n : Int32)
  | texts (values : List String)
  | uuid (u : Uuid)
  deriving DecidableEq, Repr

/-- The text of a bound value. -/
def Bind.render : Bind → String
  | number n => toString n.toInt
  | texts values => "[" ++ ", ".intercalate (values.map fun v => "\"" ++ v ++ "\"") ++ "]"
  | uuid u => u.text

/-- A condition on a row. -/
inductive Condition
  | identifies (id : Uuid)
  | equals (column : NumberColumn) (value : Int32)
  | among (column : TextColumn) (values : List String)
  | both (a b : Condition)
  | either (a b : Condition)
  deriving DecidableEq, Repr

namespace Condition

/-- The bound values, in the order of their placeholders. -/
def binds : Condition → List Bind
  | identifies id => [.uuid id]
  | equals _ value => [.number value]
  | among _ values => [.texts values]
  | both a b | either a b => a.binds ++ b.binds

/-- The text of a condition whose first placeholder has the given number. -/
def render (first : Nat) : Condition → String
  | identifies _ => "(" ++ Column.id.render ++ " = $" ++ toString first ++ ")"
  | equals column _ => "(" ++ column.column.render ++ " = $" ++ toString first ++ ")"
  | among column _ => "(" ++ column.column.render ++ " = ANY($" ++ toString first ++ "))"
  | both a b =>
    "(" ++ a.render first ++ " AND " ++ b.render (first + a.binds.length) ++ ")"
  | either a b =>
    "(" ++ a.render first ++ " OR " ++ b.render (first + a.binds.length) ++ ")"

/-- The numbers of the placeholders in the text, from left to right. -/
def placeholders (first : Nat) : Condition → List Nat
  | identifies _ | equals _ _ | among _ _ => [first]
  | both a b | either a b =>
    a.placeholders first ++ b.placeholders (first + a.binds.length)

end Condition

/-- The three truth values. -/
inductive Truth
  | no
  | unknown
  | yes
  deriving DecidableEq, Repr

namespace Truth

/-- The truth value of a decided comparison. -/
def ofBool : Bool → Truth
  | true => yes
  | false => no

/-- Truth of both: the lesser of the two. -/
def and : Truth → Truth → Truth
  | no, _ | _, no => no
  | yes, yes => yes
  | _, _ => unknown

/-- Truth of one of them: the greater of the two. -/
def or : Truth → Truth → Truth
  | yes, _ | _, yes => yes
  | no, no => no
  | _, _ => unknown

end Truth

/-- The truth of a condition on a row. -/
def Condition.eval (row : Row) : Condition → Truth
  | identifies id => .ofBool (row.id == id)
  | equals column value => .ofBool (column.read row == value)
  | among column values =>
    match column.read row with
    | none => .unknown
    | some text => .ofBool (values.contains text)
  | both a b => (a.eval row).and (b.eval row)
  | either a b => (a.eval row).or (b.eval row)

/-- A statement that selects rows. -/
structure Statement where
  /-- The condition on the rows; without one, every row is selected. -/
  condition : Option Condition
  /-- The rows come in the order of their ids. -/
  ordered : Bool
  deriving DecidableEq, Repr

namespace Statement

/-- The statement that selects the row with an id. -/
def byId (id : Uuid) : Statement := ⟨some (.identifies id), false⟩

/-- The text of a statement. -/
def render (s : Statement) : String :=
  "SELECT " ++ ", ".intercalate (Column.values.map Column.render) ++ " FROM " ++ tableName ++
    (match s.condition with
      | none => ""
      | some condition => " WHERE " ++ condition.render 1) ++
    (if s.ordered then " ORDER BY " ++ Column.id.render ++ " ASC" else "")

/-- The bound values, in the order of their placeholders. -/
def binds (s : Statement) : List Bind :=
  match s.condition with
  | none => []
  | some condition => condition.binds

/-- The text of the bound values. -/
def renderBinds (s : Statement) : String :=
  "[" ++ ", ".intercalate (s.binds.map Bind.render) ++ "]"

/-- The numbers of the placeholders in the text, from left to right. -/
def placeholders (s : Statement) : List Nat :=
  match s.condition with
  | none => []
  | some condition => condition.placeholders 1

/-- The statement selects the row. -/
def selects (s : Statement) (row : Row) : Bool :=
  match s.condition with
  | none => true
  | some condition => condition.eval row == .yes

end Statement

/-- All the conditions of a list, joined from the left. -/
def Condition.all : List Condition → Option Condition
  | [] => none
  | c :: rest => some (rest.foldl .both c)

end Sql

namespace Query

open Sql

/-- The restriction on the holder. -/
def holderCondition (q : Query) : Option Condition :=
  match q.userIds, q.groupIds with
  | [], [] => none
  | users, [] => some (.among .userId users)
  | [], groups => some (.among .groupId groups)
  | users, groups => some (.either (.among .userId users) (.among .groupId groups))

/-- The restrictions of a query as conditions, in order. -/
def conditions (q : Query) : List Condition :=
  (q.resourceType.map fun t => Condition.equals .resourceType t.id).toList ++
    (q.kind.map fun k => Condition.equals .kind k.id).toList ++
    (if q.resourceIds.isEmpty then [] else [.among .resourceId q.resourceIds]) ++
    q.holderCondition.toList

/-- The statement that selects the records of a query in the order of their ids. -/
def statement (q : Query) : Statement := ⟨Condition.all q.conditions, true⟩

end Query

end TaskAccess
