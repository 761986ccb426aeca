import Mathlib.Data.List.Basic
import Mathlib.Data.List.TakeWhile
import TaskAccess.Query.Sql

/-!
# The text of a statement

A statement is sent as a text, in which numbered placeholders stand for the values, and the
values are sent beside it.  The placeholders are numbered in the order in which they stand.
And the text tells which statement it is, up to the values that are left out of it: each
condition stands in brackets, and reading on from an opening bracket it is seen in turn
whether a column is compared or conditions are joined, which column it is, and by which word
they are joined.

## Main definitions

* `Sql.placeholdersIn` — the numbers behind the dollar signs of a text.
* `Sql.Condition.withoutValues`, `Sql.Statement.shape` — what is left of a condition, and of
  that of a statement, when its values are forgotten.
* `Sql.Condition.comparisonText`, `Sql.Condition.joinedText` — the two forms of the text of a
  condition.

## Main results

* `Sql.Condition.placeholdersIn_render`, `Sql.Statement.placeholdersIn_render` — the
  placeholders of a text are numbered in the order in which they stand.
* `Sql.Column.render_append_inj`, `Sql.Condition.render_append_inj` — a column, and a condition
  but for its values, can be read off the front of a text.
* `Sql.Statement.shape_eq_of_render_eq` — **the text of a statement determines the statement but
  for its values.**
-/

namespace TaskAccess

namespace Sql

/-! ### Placeholders in a text -/

/-- The numbers behind the dollar signs of a text, as they are written there. -/
def placeholdersIn : List Char → List String
  | [] => []
  | c :: rest =>
    if c = '$' then String.ofList (rest.takeWhile Char.isDigit) :: placeholdersIn rest
    else placeholdersIn rest

section Text

variable {s t : List Char}

theorem placeholdersIn_eq_nil (h : '$' ∉ s) : placeholdersIn s = [] := by
  induction s with
  | nil => rfl
  | cons c rest ih =>
    rw [List.mem_cons, not_or] at h
    rw [placeholdersIn, if_neg (Ne.symm h.1), ih h.2]

/-- A text that no digit starts does not change the numbers before it. -/
theorem placeholdersIn_append (h : ∀ c ∈ t.head?, c.isDigit = false) :
    placeholdersIn (s ++ t) = placeholdersIn s ++ placeholdersIn t := by
  have hnil : t.takeWhile Char.isDigit = [] := by
    cases t with
    | nil => rfl
    | cons c rest => exact List.takeWhile_cons_of_neg (by simp [h c rfl])
  induction s with
  | nil => rfl
  | cons c rest ih =>
    have htake : (rest ++ t).takeWhile Char.isDigit = rest.takeWhile Char.isDigit := by
      rw [List.takeWhile_append]
      split
      next hall =>
        rw [hnil, List.append_nil, (List.takeWhile_prefix Char.isDigit).eq_of_length hall]
      next => rfl
    rw [List.cons_append, placeholdersIn, placeholdersIn, ih, htake]
    split
    · rfl
    · rfl

/-- The digits of a number. -/
theorem isDigit_of_mem_toString {n : Nat} {c : Char} (h : c ∈ (toString n).toList) :
    c.isDigit = true := by
  rw [Nat.toString_eq_repr, Nat.toList_repr] at h
  exact Nat.isDigit_of_mem_toDigits (by decide) (by decide) h

theorem placeholdersIn_number (n : Nat) :
    placeholdersIn ('$' :: (toString n).toList) = [toString n] := by
  have hdigits : ∀ c ∈ (toString n).toList, c.isDigit = true := fun c hc =>
    isDigit_of_mem_toString hc
  have hnone : '$' ∉ (toString n).toList := fun h => absurd (hdigits _ h) (by decide)
  rw [placeholdersIn, if_pos rfl, placeholdersIn_eq_nil hnone,
    List.takeWhile_eq_self_iff.2 hdigits, String.ofList_toList]

/-- A text that starts with a character starts with no digit if that is none. -/
theorem isDigit_eq_false_of_head? {c : Char} (h : s.head? = some c) (hc : c.isDigit = false) :
    ∀ d ∈ s.head?, d.isDigit = false := by
  rw [h]
  rintro d ⟨⟩
  exact hc

/-- Texts without dollar signs around a text add nothing. -/
theorem placeholdersIn_between {m : List Char} (hs : '$' ∉ s) (ht : '$' ∉ t)
    (hm : ∀ c ∈ m.head?, c.isDigit = false) (hhead : ∀ c ∈ t.head?, c.isDigit = false) :
    placeholdersIn (s ++ m ++ t) = placeholdersIn m := by
  rw [placeholdersIn_append hhead, placeholdersIn_append hm, placeholdersIn_eq_nil hs,
    placeholdersIn_eq_nil ht, List.nil_append, List.append_nil]

/-- A text around one placeholder. -/
theorem placeholdersIn_around (n : Nat) (hs : '$' ∉ s) (ht : '$' ∉ t)
    (hhead : ∀ c ∈ t.head?, c.isDigit = false) :
    placeholdersIn (s ++ '$' :: (toString n).toList ++ t) = [toString n] := by
  rw [placeholdersIn_between hs ht (isDigit_eq_false_of_head? rfl rfl) hhead,
    placeholdersIn_number]

end Text

theorem dollar_not_mem_tableName : '$' ∉ tableName.toList := by
  simp [tableName]

/-- No name of a column holds a placeholder. -/
theorem Column.dollar_not_mem_name (c : Column) : '$' ∉ c.name.toList := by
  cases c <;> simp [name]

theorem Column.dollar_not_mem_render (c : Column) : '$' ∉ c.render.toList := by
  simp [render, String.toList_append, c.dollar_not_mem_name, dollar_not_mem_tableName]

namespace Condition

/-- The text of a condition stands in brackets. -/
theorem head?_render (c : Condition) (first : Nat) : (c.render first).toList.head? = some '(' := by
  cases c <;> simp [render, String.toList_append]

/-- The placeholders of two conditions joined by a word are those of one and the other. -/
theorem placeholdersIn_joined (a b : Condition) (word : String) (first second : Nat)
    (hword : '$' ∉ word.toList) (hhead : word.toList.head? = some ' ') :
    placeholdersIn ("(" ++ a.render first ++ word ++ b.render second ++ ")").toList =
      placeholdersIn (a.render first).toList ++ placeholdersIn (b.render second).toList := by
  simp only [String.toList_append]
  rw [placeholdersIn_append (isDigit_eq_false_of_head? rfl rfl),
    placeholdersIn_append (isDigit_eq_false_of_head? (b.head?_render second) rfl),
    placeholdersIn_append (isDigit_eq_false_of_head? hhead rfl),
    placeholdersIn_append (isDigit_eq_false_of_head? (a.head?_render first) rfl),
    placeholdersIn_eq_nil hword, List.append_nil]
  exact List.append_nil _

/-- The placeholders in the text of a condition. -/
theorem placeholdersIn_render (c : Condition) (first : Nat) :
    placeholdersIn (c.render first).toList = (c.placeholders first).map toString := by
  have hcolumn (column : Column) (word : String) (hword : '$' ∉ word.toList) :
      '$' ∉ ("(" ++ column.render ++ word).toList := by
    simp [String.toList_append, column.dollar_not_mem_render, hword]
  induction c generalizing first with
  | identifies id =>
    have h := placeholdersIn_around first (hcolumn .id " = " (by decide))
      (t := [')']) (by decide) (isDigit_eq_false_of_head? rfl rfl)
    simpa [render, placeholders, String.toList_append] using h
  | equals column value =>
    have h := placeholdersIn_around first (hcolumn column.column " = " (by decide))
      (t := [')']) (by decide) (isDigit_eq_false_of_head? rfl rfl)
    simpa [render, placeholders, String.toList_append] using h
  | among column values =>
    have h := placeholdersIn_around first (hcolumn column.column " = ANY(" (by decide))
      (t := [')', ')']) (by decide) (isDigit_eq_false_of_head? rfl rfl)
    simpa [render, placeholders, String.toList_append] using h
  | both a b iha ihb =>
    rw [render, placeholdersIn_joined a b " AND " _ _ (by decide) (by decide), iha, ihb,
      placeholders, List.map_append]
  | either a b iha ihb =>
    rw [render, placeholdersIn_joined a b " OR " _ _ (by decide) (by decide), iha, ihb,
      placeholders, List.map_append]

/-- The placeholders are numbered in the order of the bound values. -/
theorem placeholders_eq_range' (c : Condition) (first : Nat) :
    c.placeholders first = List.range' first c.binds.length := by
  induction c generalizing first with
  | identifies _ | equals _ _ | among _ _ => rfl
  | both a b iha ihb | either a b iha ihb =>
    rw [placeholders, iha, ihb, binds, List.length_append, List.range'_append_1]

end Condition

namespace Statement

/-- The text of a statement in front of its condition. -/
def selection : String :=
  "SELECT " ++ ", ".intercalate (Column.values.map Column.render) ++ " FROM " ++ tableName

/-- The text of a statement behind its condition. -/
def ordering (ordered : Bool) : String :=
  if ordered then " ORDER BY " ++ Column.id.render ++ " ASC" else ""

variable {ordered : Bool}

theorem render_none : render ⟨none, ordered⟩ = selection ++ ordering ordered := by
  simp only [render, selection, ordering, String.append_empty]

theorem render_some (c : Condition) :
    render ⟨some c, ordered⟩ = selection ++ " WHERE " ++ c.render 1 ++ ordering ordered := by
  simp only [render, selection, ordering, String.append_assoc]

theorem dollar_not_mem_selection : '$' ∉ selection.toList := by
  simp [selection, Column.values, Column.dollar_not_mem_render, dollar_not_mem_tableName,
    String.toList_append]

theorem dollar_not_mem_ordering : '$' ∉ (ordering ordered).toList := by
  cases ordered <;> simp [ordering, Column.dollar_not_mem_render, String.toList_append]

theorem isDigit_eq_false_of_head?_ordering :
    ∀ d ∈ (ordering ordered).toList.head?, d.isDigit = false := by
  cases ordered with
  | false => simp [ordering]
  | true =>
    exact isDigit_eq_false_of_head? (c := ' ') (by simp [ordering, String.toList_append]) rfl

/-- The placeholders in the text of a statement are those in the text of its condition. -/
theorem placeholdersIn_render (s : Statement) :
    placeholdersIn s.render.toList = s.placeholders.map toString := by
  obtain ⟨condition, ordered⟩ := s
  cases condition with
  | none =>
    rw [render_none, String.toList_append]
    refine placeholdersIn_eq_nil fun h => ?_
    rcases List.mem_append.1 h with h | h
    · exact dollar_not_mem_selection h
    · exact dollar_not_mem_ordering h
  | some c =>
    have hbefore : '$' ∉ (selection ++ " WHERE ").toList := by
      simp [dollar_not_mem_selection, String.toList_append]
    have hcondition : ∀ d ∈ (c.render 1).toList.head?, d.isDigit = false :=
      isDigit_eq_false_of_head? (c.head?_render 1) rfl
    rw [render_some, String.toList_append, String.toList_append,
      placeholdersIn_between hbefore dollar_not_mem_ordering hcondition
        isDigit_eq_false_of_head?_ordering, c.placeholdersIn_render]
    rfl

/-- The placeholders of a statement are numbered from one in the order of the bound values. -/
theorem placeholders_eq_range' (s : Statement) :
    s.placeholders = List.range' 1 s.binds.length := by
  obtain ⟨condition, ordered⟩ := s
  cases condition with
  | none => rfl
  | some c => exact c.placeholders_eq_range' 1

end Statement

/-! ### The text determines the condition -/

theorem Column.eq_of_name_eq {c c' : Column} : c.name = c'.name → c = c' := by
  cases c <;> cases c' <;> simp [name]

/-- What stands before the closing quote is the name. -/
theorem Column.takeWhile_name (c : Column) (x : List Char) :
    (c.name.toList ++ '"' :: x).takeWhile (· != '"') = c.name.toList := by
  have hquote : ∀ d ∈ c.name.toList, (d != '"') = true := by
    cases c <;> simp [name]
  rw [List.takeWhile_append_of_pos hquote, List.takeWhile_cons_of_neg (by simp), List.append_nil]

/-- A column can be read off the front of a text. -/
theorem Column.render_append_inj {c c' : Column} {x y : List Char}
    (h : c.render.toList ++ x = c'.render.toList ++ y) : c = c' ∧ x = y := by
  simp only [render, String.toList_append, List.append_assoc] at h
  have hrest : c.name.toList ++ '"' :: x = c'.name.toList ++ '"' :: y :=
    List.append_cancel_left (List.append_cancel_left h)
  have hname : c.name.toList = c'.name.toList := by
    rw [← c.takeWhile_name x, hrest, c'.takeWhile_name]
  rw [hname] at hrest
  refine ⟨eq_of_name_eq (String.toList_inj.1 hname), ?_⟩
  exact (List.cons.inj (List.append_cancel_left hrest)).2

@[simp] theorem NumberColumn.column_inj {c c' : NumberColumn} : c.column = c'.column ↔ c = c' := by
  cases c <;> cases c' <;> decide

@[simp] theorem NumberColumn.column_ne_id (c : NumberColumn) : c.column ≠ .id := by
  cases c <;> decide

@[simp] theorem NumberColumn.id_ne_column (c : NumberColumn) : .id ≠ c.column :=
  c.column_ne_id.symm

@[simp] theorem TextColumn.column_inj {c c' : TextColumn} : c.column = c'.column ↔ c = c' := by
  cases c <;> cases c' <;> decide

namespace Condition

/-- The condition, with its values forgotten. -/
def withoutValues : Condition → Condition
  | identifies _ => identifies default
  | equals column _ => equals column 0
  | among column _ => among column []
  | both a b => both a.withoutValues b.withoutValues
  | either a b => either a.withoutValues b.withoutValues

theorem length_binds_withoutValues (c : Condition) :
    c.withoutValues.binds.length = c.binds.length := by
  induction c with
  | identifies _ | equals _ _ | among _ _ => rfl
  | both a b iha ihb | either a b iha ihb =>
    simp only [withoutValues, binds, List.length_append, iha, ihb]

/-- The column that is compared, and whether it is compared with a list; there is none if two
conditions are joined. -/
def comparison? : Condition → Option (Column × Bool)
  | identifies _ => some (.id, false)
  | equals column _ => some (column.column, false)
  | among column _ => some (column.column, true)
  | both _ _ | either _ _ => none

/-- The text of a comparison. -/
def comparisonText (first : Nat) (p : Column × Bool) : List Char :=
  '(' :: (p.1.render.toList ++ ((if p.2 then " = ANY($" else " = $").toList ++
    ((toString first).toList ++ (if p.2 then "))" else ")").toList)))

variable {a b : Condition} {p p' : Column × Bool} {first : Nat} {x y : List Char}

theorem toList_render_of_comparison? (h : a.comparison? = some p) :
    (a.render first).toList = comparisonText first p := by
  cases a with
  | both a b => cases h
  | either a b => cases h
  | _ =>
    cases h
    simp [render, comparisonText, String.toList_append]

/-- A condition that is a comparison is told by the column and the way of comparing. -/
theorem withoutValues_eq_of_comparison? (h : a.comparison? = b.comparison?)
    (hsome : a.comparison? ≠ none) : a.withoutValues = b.withoutValues := by
  cases a <;> cases b <;> simp_all [comparison?, withoutValues]

theorem comparisonText_append_inj
    (h : comparisonText first p ++ x = comparisonText first p' ++ y) : p = p' ∧ x = y := by
  obtain ⟨c, listed⟩ := p
  obtain ⟨c', listed'⟩ := p'
  simp only [comparisonText, List.cons_append, List.append_assoc, List.cons.injEq, true_and] at h
  obtain ⟨rfl, h⟩ := Column.render_append_inj h
  -- the words of comparing differ behind the equals sign
  have hlisted : listed = listed' := by
    cases listed <;> cases listed' <;> first | rfl | simp at h
  subst hlisted
  have hnumber := List.append_cancel_left h
  have hclosing := List.append_cancel_left hnumber
  exact ⟨rfl, List.append_cancel_left hclosing⟩

/-- A comparison starts with a bracket and the quote of a name. -/
theorem exists_comparisonText_eq (first : Nat) (p : Column × Bool) :
    ∃ rest, comparisonText first p = '(' :: '"' :: rest := by
  obtain ⟨c, listed⟩ := p
  exact ⟨_, by simp [comparisonText, Column.render, tableName, String.toList_append]; rfl⟩

/-- The text of two conditions that are joined by a word. -/
def joinedText (first : Nat) (a b : Condition) (word : List Char) : List Char :=
  '(' :: ((a.render first).toList ++
    (word ++ ((b.render (first + a.binds.length)).toList ++ [')'])))

theorem toList_render_both (a b : Condition) (first : Nat) :
    ((both a b).render first).toList = joinedText first a b " AND ".toList := by
  simp [render, joinedText, String.toList_append]

theorem toList_render_either (a b : Condition) (first : Nat) :
    ((either a b).render first).toList = joinedText first a b " OR ".toList := by
  simp [render, joinedText, String.toList_append]

/-- Conditions that are joined start with two brackets. -/
theorem exists_joinedText_eq (first : Nat) (a b : Condition) (word : List Char) :
    ∃ rest, joinedText first a b word = '(' :: '(' :: rest := by
  have hhead := a.head?_render first
  unfold joinedText
  cases hr : (a.render first).toList with
  | nil =>
    rw [hr] at hhead
    cases hhead
  | cons c rest =>
    rw [hr] at hhead
    cases hhead
    exact ⟨_, rfl⟩

theorem comparisonText_append_ne (p : Column × Bool) (word : List Char) :
    comparisonText first p ++ x ≠ joinedText first a b word ++ y := by
  intro h
  obtain ⟨rest, hrest⟩ := exists_comparisonText_eq first p
  obtain ⟨rest', hrest'⟩ := exists_joinedText_eq first a b word
  rw [hrest, hrest'] at h
  simp at h

/-- What is read first of joined conditions is the first of them. -/
theorem joinedText_append_inj {a₁ a₂ b₁ b₂ : Condition} {word word' : List Char}
    (ih : ∀ {x y}, (a₁.render first).toList ++ x = (b₁.render first).toList ++ y →
      a₁.withoutValues = b₁.withoutValues ∧ x = y)
    (h : joinedText first a₁ a₂ word ++ x = joinedText first b₁ b₂ word' ++ y) :
    a₁.withoutValues = b₁.withoutValues ∧
      word ++ ((a₂.render (first + a₁.binds.length)).toList ++ ')' :: x) =
        word' ++ ((b₂.render (first + a₁.binds.length)).toList ++ ')' :: y) := by
  simp only [joinedText, List.cons_append, List.append_assoc, List.cons.injEq, true_and,
    List.nil_append] at h
  obtain ⟨hfirst, hrest⟩ := ih h
  -- the numbers of the other one start where those of the first one end
  have hlength : a₁.binds.length = b₁.binds.length := by
    rw [← length_binds_withoutValues a₁, hfirst, length_binds_withoutValues]
  rw [← hlength] at hrest
  exact ⟨hfirst, hrest⟩

/-- What follows the first bracket tells a comparison from conditions that are joined. -/
theorem comparison?_ne_none_of_render_append_eq (ha : a.comparison? ≠ none)
    (h : (a.render first).toList ++ x = (b.render first).toList ++ y) : b.comparison? ≠ none := by
  obtain ⟨p, hp⟩ := Option.ne_none_iff_exists'.1 ha
  rw [toList_render_of_comparison? hp] at h
  cases b with
  | both b₁ b₂ =>
    rw [toList_render_both] at h
    exact absurd h (comparisonText_append_ne p _)
  | either b₁ b₂ =>
    rw [toList_render_either] at h
    exact absurd h (comparisonText_append_ne p _)
  | _ => exact Option.some_ne_none _

theorem render_append_inj_of_comparison? (ha : a.comparison? ≠ none)
    (h : (a.render first).toList ++ x = (b.render first).toList ++ y) :
    a.withoutValues = b.withoutValues ∧ x = y := by
  have hb := comparison?_ne_none_of_render_append_eq ha h
  obtain ⟨p, hp⟩ := Option.ne_none_iff_exists'.1 ha
  obtain ⟨p', hp'⟩ := Option.ne_none_iff_exists'.1 hb
  rw [toList_render_of_comparison? hp, toList_render_of_comparison? hp'] at h
  obtain ⟨rfl, hxy⟩ := comparisonText_append_inj h
  exact ⟨withoutValues_eq_of_comparison? (hp.trans hp'.symm) ha, hxy⟩

/-- **The text of a condition determines the condition but for its values**, and where it ends
in a longer text. -/
theorem render_append_inj (h : (a.render first).toList ++ x = (b.render first).toList ++ y) :
    a.withoutValues = b.withoutValues ∧ x = y := by
  -- along the first condition; the second one is joined by the same word, or compares likewise
  induction a generalizing b first x y with
  | identifies _ | equals _ _ | among _ _ =>
    exact render_append_inj_of_comparison? (Option.some_ne_none _) h
  | both a₁ a₂ ih₁ ih₂ =>
    cases b with
    | both b₁ b₂ =>
      rw [toList_render_both, toList_render_both] at h
      obtain ⟨hfirst, hrest⟩ := joinedText_append_inj ih₁ h
      obtain ⟨hsecond, hxy⟩ := ih₂ (List.append_cancel_left hrest)
      exact ⟨congrArg₂ both hfirst hsecond, (List.cons.inj hxy).2⟩
    | either b₁ b₂ =>
      rw [toList_render_both, toList_render_either] at h
      obtain ⟨-, hrest⟩ := joinedText_append_inj ih₁ h
      simp at hrest
    | _ =>
      refine absurd rfl (comparison?_ne_none_of_render_append_eq ?_ h.symm)
      exact Option.some_ne_none _
  | either a₁ a₂ ih₁ ih₂ =>
    cases b with
    | both b₁ b₂ =>
      rw [toList_render_both, toList_render_either] at h
      obtain ⟨-, hrest⟩ := joinedText_append_inj ih₁ h
      simp at hrest
    | either b₁ b₂ =>
      rw [toList_render_either, toList_render_either] at h
      obtain ⟨hfirst, hrest⟩ := joinedText_append_inj ih₁ h
      obtain ⟨hsecond, hxy⟩ := ih₂ (List.append_cancel_left hrest)
      exact ⟨congrArg₂ either hfirst hsecond, (List.cons.inj hxy).2⟩
    | _ =>
      refine absurd rfl (comparison?_ne_none_of_render_append_eq ?_ h.symm)
      exact Option.some_ne_none _

end Condition

namespace Statement

variable {ordered : Bool}

/-- The condition of a statement, with its values forgotten. -/
def shape (s : Statement) : Option Condition := s.condition.map Condition.withoutValues

theorem ordering_inj {ordered ordered' : Bool}
    (h : (ordering ordered).toList = (ordering ordered').toList) : ordered = ordered' := by
  cases ordered <;> cases ordered' <;> simp_all [ordering]

theorem ordering_ne_where (x : List Char) :
    (ordering ordered).toList ≠ " WHERE ".toList ++ x := by
  cases ordered <;> simp [ordering]

/-- **The text of a statement determines the statement but for its values.** -/
theorem shape_eq_of_render_eq {s t : Statement} (h : s.render = t.render) :
    s.shape = t.shape ∧ s.ordered = t.ordered := by
  obtain ⟨condition, ordered⟩ := s
  obtain ⟨condition', ordered'⟩ := t
  replace h := congrArg String.toList h
  cases condition with
  | none =>
    cases condition' with
    | none =>
      simp only [render_none, String.toList_append] at h
      exact ⟨rfl, ordering_inj (List.append_cancel_left h)⟩
    | some c' =>
      simp only [render_none, render_some, String.toList_append, List.append_assoc] at h
      exact absurd (List.append_cancel_left h) (ordering_ne_where _)
  | some c =>
    cases condition' with
    | none =>
      simp only [render_none, render_some, String.toList_append, List.append_assoc] at h
      exact absurd (List.append_cancel_left h.symm) (ordering_ne_where _)
    | some c' =>
      simp only [render_some, String.toList_append, List.append_assoc] at h
      obtain ⟨hcondition, hordering⟩ :=
        Condition.render_append_inj (List.append_cancel_left (List.append_cancel_left h))
      exact ⟨congrArg some hcondition, ordering_inj hordering⟩

end Statement

end Sql

end TaskAccess
