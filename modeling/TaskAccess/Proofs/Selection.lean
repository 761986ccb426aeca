import TaskAccess.Permission
import TaskAccess.Proofs.StatementText

/-!
# Queries in the table and in memory

The statement of a query is a text with numbered placeholders and a list of values to
put in their places.  On the row of a record it comes out true exactly if the query
selects the record, whichever of the two holders the record leaves out.  As the text tells
all of the statement but its values, this is so for everything that is sent as this text
with these values.

## Main definitions

* `Sql.Condition.evalBound`, `Sql.Statement.selectsBound` — the truth of a condition and
  the choice of a statement when each placeholder stands for the value bound under its
  number.

## Main results

* `Sql.Condition.evalBound_binds` — a condition means the same when its values are looked
  up by number among those that are bound.
* `Sql.Statement.selectsBound_congr` — statements that differ in their values only select the
  same when the same values are bound.
* `Query.selects_statement` — the statement of a query selects the rows of the records
  that the query selects.
* `Query.statement_selects_alike` — all of it for the statement of a query.
-/

namespace TaskAccess

namespace Sql

/-! ### What is true -/

namespace Truth

variable {a b : Truth}

@[simp] theorem ofBool_eq_yes_iff {b : Bool} : ofBool b = yes ↔ b = true := by
  cases b <;> decide

@[simp] theorem and_eq_yes_iff : a.and b = yes ↔ a = yes ∧ b = yes := by
  cases a <;> cases b <;> decide

@[simp] theorem or_eq_yes_iff : a.or b = yes ↔ a = yes ∨ b = yes := by
  cases a <;> cases b <;> decide

end Truth

variable {row : Row}

namespace Condition

/-- A value is among those listed if it is there at all; a missing one is not known to be. -/
theorem eval_among_eq_yes_iff {column : TextColumn} {values : List String} :
    (among column values).eval row = .yes ↔ Query.holds values (column.read row) = true := by
  cases h : column.read row <;> simp [eval, h, Query.holds]

theorem eval_either_eq_yes_iff {a b : Condition} :
    (either a b).eval row = .yes ↔ a.eval row = .yes ∨ b.eval row = .yes :=
  Truth.or_eq_yes_iff

theorem eval_equals_eq_yes_iff {column : NumberColumn} {value : Int32} :
    (equals column value).eval row = .yes ↔ column.read row = value := by
  simp [eval]

/-- Conditions that are joined from the left are true together. -/
theorem eval_foldl_both_eq_yes_iff {c : Condition} {rest : List Condition} :
    (rest.foldl both c).eval row = .yes ↔ ∀ d ∈ c :: rest, d.eval row = .yes := by
  induction rest generalizing c with
  | nil => simp
  | cons d rest ih =>
    rw [List.foldl_cons, ih]
    simp only [List.forall_mem_cons, eval, Truth.and_eq_yes_iff, and_assoc]

end Condition

namespace Statement

/-- A statement of joined conditions selects the rows on which all of them are true. -/
theorem selects_all_iff {conditions : List Condition} {ordered : Bool} :
    (⟨Condition.all conditions, ordered⟩ : Statement).selects row = true ↔
      ∀ c ∈ conditions, c.eval row = .yes := by
  cases conditions with
  | nil => simp [Condition.all, selects]
  | cons c rest =>
    simp only [Condition.all, selects, beq_iff_eq]
    exact Condition.eval_foldl_both_eq_yes_iff

end Statement

/-! ### Values looked up by number -/

/-- The value that is bound under a number; the numbers start with one. -/
def bound? (values : List Bind) : Nat → Option Bind
  | 0 => none
  | k + 1 => values[k]?

/-- The truth of a condition on a row, its values taken from those that are bound under the
numbers of its placeholders.  A comparison with a value of another type is not decided. -/
def Condition.evalBound (row : Row) (values : List Bind) (first : Nat) : Condition → Truth
  | identifies _ =>
    match bound? values first with
    | some (.uuid id) => .ofBool (row.id == id)
    | _ => .unknown
  | equals column _ =>
    match bound? values first with
    | some (.number value) => .ofBool (column.read row == value)
    | _ => .unknown
  | among column _ =>
    match bound? values first, column.read row with
    | some (.texts listed), some text => .ofBool (listed.contains text)
    | _, _ => .unknown
  | both a b =>
    (a.evalBound row values first).and (b.evalBound row values (first + a.binds.length))
  | either a b =>
    (a.evalBound row values first).or (b.evalBound row values (first + a.binds.length))

/-- The statement selects the row when the given values are bound. -/
def Statement.selectsBound (s : Statement) (values : List Bind) (row : Row) : Bool :=
  match s.condition with
  | none => true
  | some condition => condition.evalBound row values 1 == .yes

@[simp] theorem bound?_append_cons (before after : List Bind) (value : Bind) :
    bound? (before ++ value :: after) (before.length + 1) = some value := by
  simp [bound?]

/-- A condition means the same when its values are looked up by number among those that
are bound. -/
theorem Condition.evalBound_binds (c : Condition) (before after : List Bind) :
    c.evalBound row (before ++ c.binds ++ after) (before.length + 1) = c.eval row := by
  -- the values of the other side of a junction are some of those before or after
  induction c generalizing before after with
  | identifies id => simp [evalBound, eval, binds]
  | equals column value => simp [evalBound, eval, binds]
  | among column values => cases h : column.read row <;> simp [evalBound, eval, binds, h]
  | both a b iha ihb | either a b iha ihb =>
    have ha := iha before (b.binds ++ after)
    have hb := ihb (before ++ a.binds) after
    rw [List.length_append, Nat.add_right_comm] at hb
    simp only [List.append_assoc] at ha hb
    simp only [evalBound, eval, binds, List.append_assoc, ha, hb]

/-- A statement selects the same rows when its own values are bound. -/
theorem Statement.selectsBound_binds (s : Statement) :
    s.selectsBound s.binds row = s.selects row := by
  obtain ⟨condition, ordered⟩ := s
  cases condition with
  | none => rfl
  | some c =>
    have h : c.evalBound row ([] ++ c.binds ++ []) 1 = c.eval row := c.evalBound_binds [] []
    rw [List.nil_append, List.append_nil] at h
    exact congrArg (· == .yes) h

/-! ### Values that are left out -/

/-- The values that are bound are looked up, and not those of the condition. -/
theorem Condition.evalBound_withoutValues (c : Condition) (values : List Bind) (first : Nat) :
    c.withoutValues.evalBound row values first = c.evalBound row values first := by
  induction c generalizing first with
  | identifies _ | equals _ _ | among _ _ => rfl
  | both a b iha ihb | either a b iha ihb =>
    simp only [withoutValues, evalBound, length_binds_withoutValues, iha, ihb]

/-- So statements that differ in their values only select the same rows when the same values
are bound. -/
theorem Statement.selectsBound_congr {s t : Statement} (h : s.shape = t.shape)
    (values : List Bind) : s.selectsBound values row = t.selectsBound values row := by
  obtain ⟨condition, ordered⟩ := s
  obtain ⟨condition', ordered'⟩ := t
  cases condition with
  | none =>
    cases condition' with
    | none => rfl
    | some c' => cases h
  | some c =>
    cases condition' with
    | none => cases h
    | some c' =>
      have hc : c.withoutValues = c'.withoutValues := Option.some.inj h
      show (c.evalBound row values 1 == .yes) = (c'.evalBound row values 1 == .yes)
      rw [← c.evalBound_withoutValues, hc, c'.evalBound_withoutValues]

end Sql

/-! ### The statement of a query -/

namespace Query

variable {q : Query} {r : Record}

open Sql

/-- A record is for no one of no users, or groups. -/
@[simp] theorem holds_nil (id : Option String) : holds [] id = false := by
  cases id <;> rfl

/-- The restriction on the holder is true on the row of a record exactly if the record is
for one of the users or groups. -/
theorem holderCondition_iff :
    (∀ c ∈ q.holderCondition.toList, c.eval r.toRow = .yes) ↔ q.selectsHolder r = true := by
  have huser (listed : List String) : (Condition.among .userId listed).eval r.toRow = .yes ↔
      holds listed r.userId = true := Condition.eval_among_eq_yes_iff
  have hgroup (listed : List String) : (Condition.among .groupId listed).eval r.toRow = .yes ↔
      holds listed r.groupId = true := Condition.eval_among_eq_yes_iff
  -- an empty list restricts nothing beside another empty one, and selects nobody beside a full one
  cases hu : q.userIds <;> cases hg : q.groupIds <;>
    simp [holderCondition, selectsHolder, hu, hg, huser, hgroup, Condition.eval_either_eq_yes_iff]

example : (holderCondition { userIds := ["demo"], groupIds := ["sales"] }).map (·.render 1) =
    some ("((\"authorization_record\".\"user_id\" = ANY($1)) OR " ++
      "(\"authorization_record\".\"group_id\" = ANY($2)))") := by
  decide +kernel

/-- The statement of a query selects the rows of the records that the query selects. -/
theorem selects_statement : q.statement.selects r.toRow = q.selects r := by
  have htype :
      (∀ c ∈ (q.resourceType.map fun t => Condition.equals .resourceType t.id).toList,
        c.eval r.toRow = .yes) ↔ q.resourceType.all (· == r.resourceType) = true := by
    cases q.resourceType <;>
      simp [Condition.eval_equals_eq_yes_iff, NumberColumn.read, Record.toRow, ResourceType.id_inj]
  have hkind :
      (∀ c ∈ (q.kind.map fun k => Condition.equals .kind k.id).toList,
        c.eval r.toRow = .yes) ↔ q.kind.all (· == r.kind) = true := by
    cases q.kind <;>
      simp [Condition.eval_equals_eq_yes_iff, NumberColumn.read, Record.toRow, RecordKind.id_inj]
  have hresource :
      (∀ c ∈ if q.resourceIds.isEmpty then [] else [Condition.among .resourceId q.resourceIds],
        c.eval r.toRow = .yes) ↔
        (q.resourceIds.isEmpty || q.resourceIds.contains r.resourceId) = true := by
    cases q.resourceIds <;>
      simp [Condition.eval_among_eq_yes_iff, TextColumn.read, Record.toRow, holds]
  rw [Bool.eq_iff_iff, statement, Statement.selects_all_iff]
  simp only [conditions, List.forall_mem_append, htype, hkind, hresource, holderCondition_iff,
    selects, Bool.and_eq_true]

/-- **The table selects what the query selects.**  On the row of any record the statement of
a query comes out true exactly if the query selects the record, and so it does when each
placeholder is given the value that is bound under its number.  The placeholders of its text
are numbered from one in the order in which they stand, up to the number of bound values.  And
the text and the bound values are all that counts: any statement of the same text selects the
same with these values. -/
theorem statement_selects_alike (q : Query) (r : Record) :
    q.statement.selects r.toRow = q.selects r ∧
      q.statement.selectsBound q.statement.binds r.toRow = q.selects r ∧
      placeholdersIn q.statement.render.toList =
        (List.range' 1 q.statement.binds.length).map toString ∧
      ∀ t : Statement, t.render = q.statement.render →
        t.selectsBound q.statement.binds r.toRow = q.selects r := by
  have hbound : q.statement.selectsBound q.statement.binds r.toRow = q.selects r :=
    q.statement.selectsBound_binds.trans selects_statement
  refine ⟨selects_statement, hbound, ?_, ?_⟩
  · rw [q.statement.placeholdersIn_render, q.statement.placeholders_eq_range']
  · intro t ht
    rw [Statement.selectsBound_congr (Statement.shape_eq_of_render_eq ht).1]
    exact hbound

/-- The records of either of two users are asked for with one text.  Whose they are, the value
tells that is bound. -/
theorem statement_selects_alike_otherUser :
    (statement { userIds := ["mary"] }).render = (statement { userIds := ["demo"] }).render ∧
      (statement { userIds := ["mary"] }).selectsBound (statement { userIds := ["demo"] }).binds
        (Record.ofHolder ⟨1⟩ .grant .task "t1" (.user "demo") Permission.read.mask).toRow = true ∧
      (statement { userIds := ["mary"] }).selects
        (Record.ofHolder ⟨1⟩ .grant .task "t1" (.user "demo") Permission.read.mask).toRow
          = false := by
  have htext : (statement { userIds := ["mary"] }).render =
      (statement { userIds := ["demo"] }).render := rfl
  obtain ⟨-, -, -, hsame⟩ := statement_selects_alike { userIds := ["demo"] }
    (.ofHolder ⟨1⟩ .grant .task "t1" (.user "demo") Permission.read.mask)
  exact ⟨htext, hsame _ htext, rfl⟩

end Query

end TaskAccess
