import TaskAccess.Proofs.Resolution

/-!
# What actions come to

Actions are taken apart where they are put together: at a bind, at a map, and at a
loop.  Over a store in memory that answers every call, saving a record fails only on
the record, and dropping the records of a resource never fails.

## Main definitions

* `Store.without` — the store without the records of some resources.

## Main results

* `Action.run_bind_of_eq_ok`, `Action.run_bind_of_eq_error`, `Action.run_forM_reading` —
  running a bind and a loop.
* `forM_eq_ok_iff`, `forM_eq_error_iff` — what a loop of checks comes to.
* `Store.run_dispatch` — which store is written to.
* `Store.run_saveInMemory`, `Store.run_writeInDatabase` — what the two stores make of a record
  that is saved.
* `Store.run_save_eq` — what saving a record comes to, with a connection and without.
* `Store.Works.run_save`, `Store.Works.run_save_of_defect` — a well-formed record is
  merged, and any other is refused.
* `Store.Works.run_deleteForResource` — the records of a resource are dropped and counted.
-/

namespace TaskAccess

/-! ### Running actions -/

namespace Action

variable {ε α β : Type}

theorem run_bind_of_eq_ok {a : Action ε α} {f : α → Action ε β} {s s' : Store} {x : α}
    (h : run a s = (.ok x, s')) : run (a >>= f) s = run (f x) s' := by
  rw [run_bind, h]

theorem run_bind_of_eq_error {a : Action ε α} {f : α → Action ε β} {s s' : Store} {e : ε}
    (h : run a s = (.error e, s')) : run (a >>= f) s = (.error e, s') := by
  rw [run_bind, h]

/-- A bind succeeds where its second part does after the first. -/
theorem run_bind_eq_ok_iff {a : Action ε α} {f : α → Action ε β} {s s' : Store} {y : β} :
    run (a >>= f) s = (.ok y, s') ↔
      ∃ x s₁, run a s = (.ok x, s₁) ∧ run (f x) s₁ = (.ok y, s') := by
  rw [run_bind]
  rcases run a s with ⟨e | x, s₁⟩
  · simp
  · constructor
    · intro h
      exact ⟨x, s₁, rfl, h⟩
    · rintro ⟨x', s₁', h, hf⟩
      cases h
      exact hf

/-- A bind fails where its first part fails, or its second part after the first. -/
theorem run_bind_eq_error_iff {a : Action ε α} {f : α → Action ε β} {s s' : Store} {e : ε} :
    run (a >>= f) s = (.error e, s') ↔
      run a s = (.error e, s') ∨
        ∃ x s₁, run a s = (.ok x, s₁) ∧ run (f x) s₁ = (.error e, s') := by
  rw [run_bind]
  rcases run a s with ⟨e' | x, s₁⟩
  · simp
  · constructor
    · intro h
      exact .inr ⟨x, s₁, rfl, h⟩
    · rintro (h | ⟨x', s₁', h, hf⟩)
      · cases congrArg Prod.fst h
      · cases h
        exact hf

theorem run_mapError_eq_ok_iff {ε' : Type} {wrap : ε → ε'} {a : Action ε α} {s s' : Store}
    {x : α} : run (mapError wrap a) s = (.ok x, s') ↔ run a s = (.ok x, s') := by
  rw [run_mapError]
  rcases run a s with ⟨e | x', s₁⟩
  · constructor
    · intro h
      cases congrArg Prod.fst h
    · intro h
      cases congrArg Prod.fst h
  · constructor
    · intro h
      cases h
      rfl
    · intro h
      cases h
      rfl

theorem run_mapError_eq_error_iff {ε' : Type} {wrap : ε → ε'} {a : Action ε α} {s s' : Store}
    {e : ε'} :
    run (mapError wrap a) s = (.error e, s') ↔ ∃ e', wrap e' = e ∧ run a s = (.error e', s') := by
  rw [run_mapError]
  rcases run a s with ⟨e' | x, s₁⟩
  · constructor
    · intro h
      cases h
      exact ⟨e', rfl, rfl⟩
    · rintro ⟨e', rfl, h⟩
      cases h
      rfl
  · constructor
    · intro h
      cases congrArg Prod.fst h
    · rintro ⟨e', -, h⟩
      cases congrArg Prod.fst h

theorem run_bind_congr {a b : Action ε α} {f f' : α → Action ε β} {s : Store}
    (h : run a s = run b s) (hf : ∀ x s', run (f x) s' = run (f' x) s') :
    run (a >>= f) s = run (b >>= f') s := by
  rw [run_bind, run_bind, h]
  rcases run b s with ⟨e | x, s'⟩
  · rfl
  · exact hf x s'

theorem run_bind_pure_unit (a : Action ε Unit) (s : Store) :
    run (a >>= fun _ => pure ()) s = run a s := by
  rw [run_bind]
  rcases run a s with ⟨e | u, s'⟩ <;> rfl

theorem run_forM_singleton (x : α) (f : α → Action ε Unit) (s : Store) :
    run ([x].forM f) s = run (f x) s := run_bind_pure_unit (f x) s

theorem run_map (f : α → β) (a : Action ε α) (s : Store) :
    run (f <$> a) s = ((run a s).1.map f, (run a s).2) := by
  show run (a >>= fun x => pure (f x)) s = _
  rw [run_bind]
  rcases run a s with ⟨e | x, s'⟩ <;> rfl

/-- Reading in a loop is a loop of reading. -/
theorem run_forM_reading (xs : List α) (f : α → Store → Except ε Unit) (s : Store) :
    run (xs.forM fun x => reading (f x)) s = (xs.forM (f · s), s) := by
  induction xs with
  | nil => rfl
  | cons x rest ih =>
    cases hx : f x s with
    | error e =>
      have h : run (reading (f x)) s = (.error e, s) := by rw [run_reading, hx]
      exact (run_bind_of_eq_error h).trans (by rw [List.forM, hx]; rfl)
    | ok u =>
      have h : run (reading (f x)) s = (.ok u, s) := by rw [run_reading, hx]
      exact (run_bind_of_eq_ok h).trans (ih.trans (by rw [List.forM, hx]; rfl))

end Action

/-- A loop of checks succeeds if every check does. -/
theorem forM_eq_ok_iff {ε α : Type} {xs : List α} {f : α → Except ε Unit} :
    xs.forM f = .ok () ↔ ∀ x ∈ xs, f x = .ok () := by
  induction xs with
  | nil => simp [List.forM, pure, Except.pure]
  | cons x rest ih =>
    cases hx : f x with
    | error e => simp [List.forM, hx, bind, Except.bind]
    | ok u => simpa [List.forM, hx, bind, Except.bind] using ih

/-- What holds of every element of a list holds of the first one, and of the others. -/
theorem forall_append_cons_iff {α : Type} {P : List α → α → Prop} {a : α} {rest : List α} :
    (∀ pre x post, a :: rest = pre ++ x :: post → P pre x) ↔
      P [] a ∧ ∀ pre x post, rest = pre ++ x :: post → P (a :: pre) x := by
  constructor
  · intro h
    refine ⟨h [] a rest rfl, fun pre x post hrest => h (a :: pre) x post ?_⟩
    rw [hrest, List.cons_append]
  · rintro ⟨hfirst, hrest⟩ pre x post h
    cases pre with
    | nil =>
      obtain ⟨rfl, rfl⟩ := List.cons.inj h
      exact hfirst
    | cons b pre =>
      obtain ⟨rfl, hpre⟩ := List.cons.inj h
      exact hrest pre x post hpre

/-- What holds of some element of a list holds of the first one, or of one of the others. -/
theorem exists_append_cons_iff {α : Type} {P : List α → α → Prop} {a : α} {rest : List α} :
    (∃ pre x post, a :: rest = pre ++ x :: post ∧ P pre x) ↔
      P [] a ∨ ∃ pre x post, rest = pre ++ x :: post ∧ P (a :: pre) x := by
  constructor
  · rintro ⟨pre, x, post, h, hx⟩
    cases pre with
    | nil =>
      obtain ⟨rfl, rfl⟩ := List.cons.inj h
      exact .inl hx
    | cons b pre =>
      obtain ⟨rfl, hpre⟩ := List.cons.inj h
      exact .inr ⟨pre, x, post, hpre, hx⟩
  · rintro (hx | ⟨pre, x, post, hrest, hx⟩)
    · exact ⟨[], a, rest, rfl, hx⟩
    · exact ⟨a :: pre, x, post, by rw [hrest, List.cons_append], hx⟩

/-- A loop of checks fails with the first check that does. -/
theorem forM_eq_error_iff {ε α : Type} {xs : List α} {f : α → Except ε Unit} {e : ε} :
    xs.forM f = .error e ↔
      ∃ pre x post, xs = pre ++ x :: post ∧ (∀ y ∈ pre, f y = .ok ()) ∧ f x = .error e := by
  induction xs with
  | nil => simp [List.forM, pure, Except.pure]
  | cons x rest ih =>
    rw [exists_append_cons_iff (P := fun pre x => (∀ y ∈ pre, f y = .ok ()) ∧ f x = .error e)]
    cases hx : f x with
    | error e' => simp [List.forM, hx, bind, Except.bind]
    | ok u => simpa [List.forM, hx, bind, Except.bind] using ih

/-! ### Writing to a store in memory -/

/-- A malformed record has a first defect. -/
theorem Record.exists_defect {r : Record} (h : ¬ r.WellFormed) :
    ∃ defect, r.defect? = some defect :=
  Option.ne_none_iff_exists'.1 fun hnone => h (defect?_eq_none_iff.1 hnone)

namespace Store

/-- The store without the records of some resource ids. -/
def without (s : Store) (ids : List String) : Store :=
  { s with ledger := s.ledger.filter fun r => !ids.contains r.resourceId }

@[simp] theorem without_nil (s : Store) : s.without [] = s := by
  simp [without, List.filter_eq_self.2]

theorem without_singleton (s : Store) (id : String) :
    s.without [id] = { s with ledger := s.ledger.eraseResource id } := by
  have hmem : ∀ r : Record, (!([id].contains r.resourceId)) = (r.resourceId != id) := by
    intro r
    rw [List.contains_cons, List.contains_nil, Bool.or_false]
    rfl
  simp only [without, Ledger.eraseResource, hmem]

theorem ledger_without (s : Store) (ids : List String) :
    (s.without ids).ledger = s.ledger.filter fun r => r.resourceId ∉ ids := by
  simp [without]

/-- Only which ids are named counts, not in which order or how often. -/
theorem without_congr (s : Store) {ids ids' : List String} (h : ∀ id, id ∈ ids ↔ id ∈ ids') :
    s.without ids = s.without ids' := by
  have hmem : ∀ id : String, ids.contains id = ids'.contains id := by
    intro id
    rw [Bool.eq_iff_iff, List.contains_iff_mem, List.contains_iff_mem]
    exact h id
  simp only [without, hmem]

theorem length_without_le (s : Store) (ids : List String) :
    (s.without ids).ledger.length ≤ s.ledger.length := List.length_filter_le _ _

/-- The records of a resource id and the other ones are all records. -/
theorem countP_add_length_without (s : Store) (id : String) :
    (s.ledger.countP fun r => r.resourceId == id) + (s.without [id]).ledger.length =
      s.ledger.length := by
  have hrest : (s.without [id]).ledger.length = s.ledger.countP fun r => ¬ r.resourceId == id := by
    rw [ledger_without, List.countP_eq_length_filter]
    simp
  rw [hrest, ← List.length_eq_countP_add_countP]

theorem without_cons (s : Store) (id : String) (ids : List String) :
    s.without (id :: ids) = (s.without [id]).without ids := by
  have hmem : ∀ x : String, (id :: ids).contains x = ([id].contains x || ids.contains x) := by
    intro x
    simp
  simp only [without, List.filter_filter, hmem, Bool.not_or, Bool.and_comm]

/-! ### Writing in memory and in a database -/

section Dispatch

variable {α : Type} {call : StoreCall} {a b : Action StoreError α} {s : Store}

/-- A call that is accepted is handed to the store that keeps the records. -/
theorem run_dispatch (call : StoreCall) (a b : Action StoreError α) (s : Store) :
    Action.run (dispatch call a b) s =
      match s.accept call with
      | .error e => (.error e, s)
      | .ok () =>
        match s.backend with
        | .memory => Action.run a s
        | .unreachable => Action.run b s := by
  unfold dispatch
  rw [Action.run_bind, Action.run_reading]
  cases s.accept call with
  | error e => rfl
  | ok u =>
    show Action.run (match s.backend with | .memory => a | .unreachable => b) s = _
    split <;> rfl

theorem Works.run_dispatch (hs : s.Works) : Action.run (dispatch call a b) s = Action.run a s := by
  rw [Store.run_dispatch, hs.accept_eq, hs.in_memory]

end Dispatch

/-- The store in memory looks at the record before it looks at the others. -/
theorem run_saveInMemory (r : Record) (s : Store) :
    Action.run (saveInMemory r) s =
      match r.defect? with
      | some defect => (.error (.fault (.malformedRecord r.id defect)), s)
      | none => (.ok (s.ledger.inserted r), { s with ledger := s.ledger.insert r }) := by
  unfold saveInMemory
  rw [Action.run_bind, Action.run_reading, refuseMalformed, Record.validate]
  cases r.defect? with
  | some defect => rfl
  | none => rfl

/-- The store over a database looks at the record before it waits for a connection. -/
theorem run_writeInDatabase (r : Record) (s : Store) :
    Action.run (writeInDatabase r) s =
      match r.defect? with
      | some defect => (.error (.fault (.malformedRecord r.id defect)), s)
      | none => (.error .noConnection, s) := by
  unfold writeInDatabase
  rw [Action.run_ofExcept, refuseMalformed, Record.validate]
  cases r.defect? with
  | some defect => rfl
  | none => rfl

/-- A record that is saved is looked at before a connection is asked for, and what is answered
is read off the records before it is merged into them. -/
theorem run_save_eq {s : Store} (h : s.failing = []) (r : Record) :
    Action.run (save r) s =
      match r.defect? with
      | some defect => (.error (.fault (.malformedRecord r.id defect)), s)
      | none =>
        match s.connect with
        | .error e => (.error e, s)
        | .ok () => (.ok (s.ledger.inserted r), { s with ledger := s.ledger.insert r }) := by
  rw [save, run_dispatch, accept_eq_ok h, connect, run_saveInMemory, run_writeInDatabase]
  cases s.backend with
  | memory => cases r.defect? <;> rfl
  | unreachable => cases r.defect? <;> rfl

namespace Works

variable {s : Store} {r : Record}

theorem without (hs : s.Works) (ids : List String) : (s.without ids).Works :=
  ⟨hs.in_memory, hs.none_failing⟩

theorem withMinted (hs : s.Works) (n : Nat) :
    Works { s with minted := n } := ⟨hs.in_memory, hs.none_failing⟩

theorem withLedger (hs : s.Works) (l : Ledger) :
    Works { s with ledger := l } := ⟨hs.in_memory, hs.none_failing⟩

theorem run_save (hs : s.Works) (h : r.WellFormed) :
    Action.run (save r) s =
      (.ok (s.ledger.inserted r), { s with ledger := s.ledger.insert r }) := by
  rw [run_save_eq hs.none_failing, Record.defect?_eq_none_iff.2 h, hs.connect_eq]

theorem run_save_of_defect (hs : s.Works) {defect : RecordDefect} (h : r.defect? = some defect) :
    Action.run (save r) s = (.error (.fault (.malformedRecord r.id defect)), s) := by
  rw [run_save_eq hs.none_failing, h]

theorem run_deleteForResource (hs : s.Works) (id : String) :
    Action.run (deleteForResource id) s =
      (.ok (s.ledger.countP fun r => r.resourceId == id), s.without [id]) := by
  rw [deleteForResource, hs.run_dispatch, without_singleton]
  rfl

end Works

end Store

end TaskAccess
