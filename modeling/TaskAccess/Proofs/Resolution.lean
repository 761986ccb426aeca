import TaskAccess.Access.Enforcement

/-!
# What the resolver decides

The resolver asks the store for records, folds them into two masks and walks from
a resource to its owner.  Over a store in memory that answers every call it never
fails, and what it answers is what `Holds` and `Permitted` say of the ledger: the
bits are permitted and not forbidden by records that apply, and the walk looks at
the check and at what is asked after it.

## Main definitions

* `Ledger.effective` — the permissions of an identity on a target, by a ledger.

## Main results

* `selects_query_iff` — the query of an identity selects the records that apply.
* `Store.Works.holds_eq`, `Store.Works.permits_eq` — the resolver answers `Holds`
  and `Permitted`.
* `permitted_iff_exists_mem_chain` — a permission is held somewhere along the chain.
* `isAuthorized_iff_held_or_held_on_owner` — **the resolver is correct**: a check
  succeeds exactly if its permission is held on the resource, or under its fallback
  name on the owner.
-/

namespace TaskAccess

/-! ### The records that apply -/

theorem Query.holds_eq_true_iff {listed : List String} {id : Option String} :
    Query.holds listed id = true ↔ ∃ x ∈ listed, id = some x := by
  cases id with
  | none => simp [Query.holds]
  | some x => simp [Query.holds]

/-- The query for a target names the wildcard and the resource itself. -/
private theorem contains_resourceIds_iff {target : Target} {id : String} :
    (wildcard :: target.id?.toList).contains id = true ↔
      id = wildcard ∨ target = .only id := by
  cases target with
  | any => simp [Target.id?]
  | only x =>
    simp only [Target.id?, Option.toList_some, List.contains_iff_mem, List.mem_cons,
      List.not_mem_nil, or_false, Target.only.injEq]
    rw [eq_comm (a := x)]

/-- **The query of an identity selects the records that apply to it.** -/
theorem selects_query_iff {i : Identity} {t : ResourceType} {target : Target} {r : Record} :
    (i.query t target).selects r = true ↔ r.AppliesTo i t target := by
  have hid : (wildcard :: target.id?.toList).contains r.resourceId = true ↔
      r.resourceId = wildcard ∨ target = .only r.resourceId := contains_resourceIds_iff
  have huser : Query.holds [i.userId, wildcard] r.userId = true ↔
      r.userId = some i.userId ∨ r.userId = some wildcard := by
    rw [Query.holds_eq_true_iff]
    simp
  have hgroup : Query.holds (i.groupIds ++ [wildcard]) r.groupId = true ↔
      (∃ g ∈ i.groupIds, r.groupId = some g) ∨ r.groupId = some wildcard := by
    rw [Query.holds_eq_true_iff]
    simp [or_and_right, exists_or]
  simp only [Query.selects, Query.selectsHolder, Identity.query, Option.all_some, Option.all_none,
    List.isEmpty_cons, Bool.false_and, Bool.false_or, Bool.and_true, Bool.and_eq_true,
    Bool.or_eq_true, beq_iff_eq, hid, huser, hgroup]
  constructor
  · rintro ⟨⟨ht, hr⟩, hh⟩
    exact ⟨ht.symm, hr, hh⟩
  · rintro ⟨ht, hr, hh⟩
    exact ⟨⟨ht.symm, hr⟩, hh⟩

/-! ### The two masks -/

theorem RecordKind.isGranting_eq_true_iff {k : RecordKind} : k.isGranting = true ↔ k ≠ .revoke := by
  cases k <;> simp [RecordKind.isGranting]

private theorem mem_unionAll_permissions {bit : Nat} {rs : List Record} :
    bit ∈ Mask.unionAll (rs.map Record.permissions) ↔ ∃ r ∈ rs, bit ∈ r.permissions := by
  rw [Mask.mem_unionAll]
  constructor
  · rintro ⟨m, hm, hbit⟩
    obtain ⟨r, hr, rfl⟩ := List.mem_map.1 hm
    exact ⟨r, hr, hbit⟩
  · rintro ⟨r, hr, hbit⟩
    exact ⟨r.permissions, List.mem_map_of_mem hr, hbit⟩

theorem Effective.mem_granted_ofRecords {bit : Nat} {rs : List Record} :
    bit ∈ (Effective.ofRecords rs).granted ↔
      ∃ r ∈ rs, r.kind ≠ .revoke ∧ bit ∈ r.permissions := by
  simp only [Effective.ofRecords, mem_unionAll_permissions, List.mem_filter,
    RecordKind.isGranting_eq_true_iff, and_assoc]

theorem Effective.mem_revoked_ofRecords {bit : Nat} {rs : List Record} :
    bit ∈ (Effective.ofRecords rs).revoked ↔
      ∃ r ∈ rs, r.kind = .revoke ∧ bit ∈ r.permissions := by
  have hkind : ∀ k : RecordKind, (!k.isGranting) = true ↔ k = .revoke := by
    intro k
    cases k <;> simp [RecordKind.isGranting]
  simp only [Effective.ofRecords, mem_unionAll_permissions, List.mem_filter, hkind, and_assoc]

/-- The permissions of an identity on a target, by the records of a ledger. -/
def Ledger.effective (l : Ledger) (i : Identity) (t : ResourceType) (target : Target) :
    Effective :=
  .ofRecords (l.filter (i.query t target).selects)

/-- A bit is effective if a record that applies permits it and none forbids it. -/
theorem Ledger.mem_mask_effective {l : Ledger} {i : Identity} {t : ResourceType}
    {target : Target} {bit : Nat} :
    bit ∈ (l.effective i t target).mask ↔
      (∃ r ∈ l, r.AppliesTo i t target ∧ r.kind ≠ .revoke ∧ bit ∈ r.permissions) ∧
        ∀ r ∈ l, r.AppliesTo i t target → r.kind = .revoke → bit ∉ r.permissions := by
  rw [Effective.mask, Mask.mem_sdiff, Ledger.effective, Effective.mem_granted_ofRecords,
    Effective.mem_revoked_ofRecords]
  simp only [List.mem_filter, selects_query_iff, and_assoc, not_exists, not_and]

/-- A permission is held if the effective mask has all of its bits. -/
theorem holds_iff_grants {l : Ledger} {i : Identity} {c : Check} :
    Holds l i c ↔ (l.effective i c.resourceType c.target).mask.grants c.permission = true := by
  rw [Mask.grants_iff]
  constructor
  · intro h bit hbit
    exact Ledger.mem_mask_effective.2 (h bit hbit)
  · intro h bit hbit
    exact Ledger.mem_mask_effective.1 (h bit hbit)

instance (l : Ledger) (i : Identity) (c : Check) : Decidable (Holds l i c) :=
  decidable_of_iff _ holds_iff_grants.symm

/-! ### A store that answers every call -/

/-- A store accepts every call, unless it was told to fail some. -/
theorem Store.accept_eq_ok {s : Store} (h : s.failing = []) (call : StoreCall) :
    s.accept call = .ok () := by
  simp [Store.accept, h]

namespace Store.Works

variable {s : Store}

theorem accept_eq (hs : s.Works) (call : StoreCall) : s.accept call = .ok () :=
  accept_eq_ok hs.none_failing call

theorem connect_eq (hs : s.Works) : s.connect = .ok () := by
  simp [Store.connect, hs.in_memory]

theorem find_eq (hs : s.Works) (q : Query) : s.find q = .ok (s.ledger.filter q.selects) := by
  rw [Store.find, hs.accept_eq, hs.connect_eq]
  rfl

theorem effective_eq (hs : s.Works) (i : Identity) (t : ResourceType) (target : Target) :
    s.effective i t target = .ok (s.ledger.effective i t target) := by
  rw [Store.effective, hs.find_eq]
  rfl

/-- On the resource of the check itself the resolver answers `Holds`. -/
theorem holds_eq (hs : s.Works) (i : Identity) (c : Check) :
    s.holds i c = .ok (decide (Holds s.ledger i c)) := by
  have hdec : decide (Holds s.ledger i c) =
      (s.ledger.effective i c.resourceType c.target).mask.grants c.permission := by
    rw [Bool.eq_iff_iff, decide_eq_true_eq]
    exact holds_iff_grants
  rw [Store.holds, hs.effective_eq, hdec]
  rfl

end Store.Works

/-! ### The walk to the owner -/

theorem Check.chain_of_fallback?_eq_none {c : Check} (h : c.fallback? = none) :
    c.chain = [c] := by
  rw [Check.chain]
  split
  · rfl
  · next next hnext => rw [h] at hnext; cases hnext

theorem Check.chain_of_fallback?_eq_some {c next : Check} (h : c.fallback? = some next) :
    c.chain = c :: next.chain := by
  rw [Check.chain]
  split
  · next hnone => rw [h] at hnone; cases hnone
  · next next' hnext =>
    rw [h] at hnext
    cases hnext
    rfl

/-- A permission is held somewhere along the chain of the check. -/
theorem permitted_iff_exists_mem_chain {l : Ledger} {i : Identity} {c : Check} :
    Permitted l i c ↔ ∃ step ∈ c.chain, Holds l i step := by
  constructor
  · intro h
    induction h with
    | @held c h =>
      cases hf : c.fallback? with
      | none => exact ⟨c, by rw [Check.chain_of_fallback?_eq_none hf]; simp, h⟩
      | some next => exact ⟨c, by rw [Check.chain_of_fallback?_eq_some hf]; simp, h⟩
    | owner hnext _ ih =>
      obtain ⟨step, hmem, hstep⟩ := ih
      refine ⟨step, ?_, hstep⟩
      rw [Check.chain_of_fallback?_eq_some hnext]
      exact List.mem_cons_of_mem _ hmem
  · rintro ⟨step, hmem, hstep⟩
    -- along the chain, whose recursion is that of the resolver
    induction c using Check.chain.induct with
    | case1 c ih =>
      cases hf : c.fallback? with
      | none =>
        rw [Check.chain_of_fallback?_eq_none hf, List.mem_singleton] at hmem
        subst hmem
        exact .held hstep
      | some next =>
        rw [Check.chain_of_fallback?_eq_some hf, List.mem_cons] at hmem
        rcases hmem with rfl | hmem
        · exact .held hstep
        · exact .owner hf (ih next hf hmem)

instance (l : Ledger) (i : Identity) (c : Check) : Decidable (Permitted l i c) :=
  decidable_of_iff _ permitted_iff_exists_mem_chain.symm

theorem permitted_iff_of_fallback?_eq_none {l : Ledger} {i : Identity} {c : Check}
    (h : c.fallback? = none) : Permitted l i c ↔ Holds l i c := by
  rw [permitted_iff_exists_mem_chain, Check.chain_of_fallback?_eq_none h]
  simp

theorem permitted_iff_of_fallback?_eq_some {l : Ledger} {i : Identity} {c next : Check}
    (h : c.fallback? = some next) : Permitted l i c ↔ Holds l i c ∨ Permitted l i next := by
  rw [permitted_iff_exists_mem_chain, permitted_iff_exists_mem_chain,
    Check.chain_of_fallback?_eq_some h]
  simp

theorem Store.permits_of_fallback?_eq_none {s : Store} {i : Identity} {c : Check}
    (h : s.holds i c = .ok false) (hf : c.fallback? = none) : s.permits i c = .ok false := by
  rw [Store.permits, h]
  dsimp only
  split
  · rfl
  · next hsome => rw [hf] at hsome; cases hsome

theorem Store.permits_of_fallback?_eq_some {s : Store} {i : Identity} {c next : Check}
    (h : s.holds i c = .ok false) (hf : c.fallback? = some next) :
    s.permits i c = s.permits i next := by
  rw [Store.permits, h]
  dsimp only
  split
  · next hnone => rw [hf] at hnone; cases hnone
  · next next' hsome =>
    rw [hf] at hsome
    cases hsome
    rfl

/-- **The resolver answers `Permitted`.** -/
theorem Store.Works.permits_eq {s : Store} (hs : s.Works) (i : Identity) (c : Check) :
    s.permits i c = .ok (decide (Permitted s.ledger i c)) := by
  induction c using Check.chain.induct with
  | case1 c ih =>
    have hholds : s.holds i c = .ok (decide (Holds s.ledger i c)) := hs.holds_eq i c
    by_cases hc : Holds s.ledger i c
    · have hp : Permitted s.ledger i c := .held hc
      rw [Store.permits, hholds]
      simp [hc, hp]
    · rw [decide_eq_false hc] at hholds
      cases hf : c.fallback? with
      | none =>
        rw [Store.permits_of_fallback?_eq_none hholds hf]
        simp [permitted_iff_of_fallback?_eq_none hf, hc]
      | some next =>
        rw [Store.permits_of_fallback?_eq_some hholds hf, ih next hf]
        simp [permitted_iff_of_fallback?_eq_some hf, hc]

/-! ### The answer to a caller -/

/-- A resource has no owner above its owner: the table ends after one step. -/
theorem Check.fallback?_eq_none_of_fallback? {c next : Check} (h : c.fallback? = some next) :
    next.fallback? = none := by
  cases hf : next.fallback? with
  | none => rfl
  | some after =>
    have h1 := Check.rank_fallback?_lt h
    have h2 := Check.rank_fallback?_lt hf
    have h3 := c.resourceType.rank_le_one
    omega

/-- The check of the owner, by what the table and the lineage say. -/
theorem Check.exists_fallback?_iff {c : Check} {P : Check → Prop} :
    (∃ next, c.fallback? = some next ∧ P next) ↔
      ∃ id entry p owner, c.target = .only id ∧
        TaskAccess.fallback? c.resourceType c.permission = some entry ∧
        entry.permission = some p ∧ c.lineage.ownerId? entry.resourceType = some owner ∧
        P ⟨p, entry.resourceType, .ofId owner, c.lineage⟩ := by
  cases ht : c.target with
  | any => simp [Check.fallback?, ht]
  | only x =>
    simp only [Check.fallback?, ht, Option.bind_eq_bind, Option.bind_eq_some_iff,
      Option.pure_def, Option.some.injEq]
    constructor
    · rintro ⟨next, ⟨entry, he, p, hp, owner, ho, rfl⟩, hP⟩
      exact ⟨x, entry, p, owner, rfl, he, hp, ho, hP⟩
    · rintro ⟨_, entry, p, owner, _, he, hp, ho, hP⟩
      exact ⟨_, ⟨entry, he, p, hp, owner, ho, rfl⟩, hP⟩

theorem permitted_iff_holds_or_holds_fallback? {l : Ledger} {i : Identity} {c : Check} :
    Permitted l i c ↔ Holds l i c ∨ ∃ next, c.fallback? = some next ∧ Holds l i next := by
  cases hf : c.fallback? with
  | none => simp [permitted_iff_of_fallback?_eq_none hf]
  | some next =>
    rw [permitted_iff_of_fallback?_eq_some hf,
      permitted_iff_of_fallback?_eq_none (Check.fallback?_eq_none_of_fallback? hf)]
    simp

theorem Caller.checkedIdentity?_eq_none_iff {caller : Caller} :
    caller.checkedIdentity? = none ↔ caller.identity = none ∨ caller.checksEnabled = false := by
  cases h : caller.checksEnabled <;> simp [Caller.checkedIdentity?, h]

theorem Store.isAuthorized_of_checkedIdentity?_eq_none {s : Store} {caller : Caller}
    (h : caller.checkedIdentity? = none) (c : Check) : s.isAuthorized caller c = .ok true := by
  rw [Store.isAuthorized, h]

theorem Store.Works.isAuthorized_eq {s : Store} (hs : s.Works) {caller : Caller} {i : Identity}
    (h : caller.checkedIdentity? = some i) (c : Check) :
    s.isAuthorized caller c = .ok (decide (Permitted s.ledger i c)) := by
  rw [Store.isAuthorized, h]
  show (s.permits i c).mapError AccessError.store = _
  rw [hs.permits_eq]
  rfl

/-- **The resolver is correct.**  Over a store in memory it always answers, and a
check succeeds for a checked identity exactly if the permission is held on the
resource of the check, or the check is about one resource, the table names a
counterpart of the permission for an owner, the lineage knows the owner, and the
counterpart is held there.  A caller without an identity, or with checks skipped,
always succeeds. -/
theorem isAuthorized_iff_held_or_held_on_owner {s : Store} (hs : s.Works) (caller : Caller)
    (c : Check) :
    (∀ i, caller.checkedIdentity? = some i →
      ∃ b, s.isAuthorized caller c = .ok b ∧
        (b = true ↔
          Holds s.ledger i c ∨
            ∃ id entry p owner, c.target = .only id ∧
              fallback? c.resourceType c.permission = some entry ∧
              entry.permission = some p ∧ c.lineage.ownerId? entry.resourceType = some owner ∧
              Holds s.ledger i ⟨p, entry.resourceType, .ofId owner, c.lineage⟩)) ∧
      (caller.identity = none ∨ caller.checksEnabled = false →
        s.isAuthorized caller c = .ok true) := by
  constructor
  · intro i hi
    refine ⟨decide (Permitted s.ledger i c), hs.isAuthorized_eq hi c, ?_⟩
    rw [decide_eq_true_eq, permitted_iff_holds_or_holds_fallback?, Check.exists_fallback?_iff]
  · intro h
    exact Store.isAuthorized_of_checkedIdentity?_eq_none
      (Caller.checkedIdentity?_eq_none_iff.2 h) c

/-- Everybody may read tasks and the definition, but one group is forbidden the task. -/
def revokedOnTask : Ledger :=
  [.ofHolder ⟨1⟩ .grant .task wildcard (.group wildcard) Permission.read.mask,
    .ofHolder ⟨2⟩ .revoke .task "t1" (.group "sales") Permission.all.mask,
    .forEverybody ⟨3⟩ .processDefinition "invoice" Permission.readTask.mask]

/-- The permission that is revoked on the task is held on its definition. -/
theorem isAuthorized_of_held_on_definition :
    (Store.ofLedger revokedOnTask).Works ∧
      (Caller.authenticated ⟨"demo", ["hr", "sales"]⟩).checkedIdentity? =
        some ⟨"demo", ["hr", "sales"]⟩ ∧
      ¬ Holds revokedOnTask ⟨"demo", ["hr", "sales"]⟩
        ⟨.read, .task, .only "t1", ⟨some "invoice", none⟩⟩ ∧
      (Store.ofLedger revokedOnTask).isAuthorized (.authenticated ⟨"demo", ["hr", "sales"]⟩)
        ⟨.read, .task, .only "t1", ⟨some "invoice", none⟩⟩ = .ok true := by
  have hs : (Store.ofLedger revokedOnTask).Works := ⟨rfl, rfl⟩
  obtain ⟨b, hb, hiff⟩ :=
    (isAuthorized_iff_held_or_held_on_owner hs (.authenticated ⟨"demo", ["hr", "sales"]⟩)
      ⟨.read, .task, .only "t1", ⟨some "invoice", none⟩⟩).1 ⟨"demo", ["hr", "sales"]⟩ rfl
  have hb' : b = true := hiff.2 (.inr ⟨"t1", ⟨.processDefinition, some .readTask⟩, .readTask,
    "invoice", rfl, rfl, rfl, rfl, by decide⟩)
  exact ⟨hs, rfl, by decide, hb' ▸ hb⟩

end TaskAccess
