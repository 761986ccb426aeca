import TaskAccess.Proofs.KeptAccess
import TaskAccess.Proofs.TaskPermissions

/-!
# The outcome of linking

Assigning a task, giving it to an owner, claiming, delegating and adding a link are one
operation.  It has seven outcomes, and they are told apart in a fixed order: there is no such
task, the task belongs to a case, the wildcard would be linked, the caller is denied, nobody
would be linked, the task has no id, and the link is granted.  The gate, the check of the
caller and the grants each know some of these, and some are looked for more than once; but the
first of them that applies is the outcome.

## Main definitions

* `TaskGate.Call.linking?` — the task, the operation and the link of a call that links.
* `TaskGate.linkingOutcome` — the first outcome that applies.
* `Store.GrantSaved` — the effect of linking.

## Main results

* `TaskGate.Call.of_linking?` — what such a call asks for, links and is refused for.
* `TaskGate.Call.run_perform_of_linking?` — **a call that links has the first outcome that
  applies.**
* `TaskGate.linking_has_one_outcome` — with its effect: one grant, or none.
-/

namespace TaskAccess

/-- The link names the wildcard. -/
def Link.isReserved (l : Link) : Bool := l.holder.id == wildcard

theorem Link.refusal?_eq (l : Link) :
    l.refusal? = if l.isReserved then some (.reserved l.target) else none := by
  simp [refusal?, isReserved]

/-- One grant was saved, and nothing else was done: on the task, for whomever the link names, of
reading, of what is configured for users or for groups, and of the additional permissions. -/
def Store.GrantSaved (s : Store) (g : DefaultGrants) (task : Task) (link : Link) (s' : Store) :
    Prop :=
  ∃ stored, Action.run
    (Store.save (.ofHolder (.numbered s.minted) .grant .task task.id link.holder
      (Permission.read.mask ∪ (g.configured link.holder.kind).mask ∪ g.additional)))
    { s with minted := s.minted + 1 } = (.ok stored, s')

namespace TaskGate

variable {g : TaskGate} {s : Store} {task : Task} {op : Task.Operation} {link : Option Link}
  {caller : Caller}

/-- The task that a call is to link somebody to, the operation that this is, and whom it would
link: the identity as it is named, which may be empty. -/
def Call.linking? : Call → Option (Task × Task.Operation × Option Link)
  | setAssignee task userId => some (task, .setAssignee, userId.map Link.assignee)
  | setOwner task userId => some (task, .setOwner, userId.map Link.owner)
  | claim task userId => some (task, .claim, userId.map Link.assignee)
  | delegate task userId => some (task, .delegate, some (.assignee userId))
  | addIdentityLink task link => some (task, .addIdentityLink, some link)
  | addCandidateUser task userId => some (task, .addIdentityLink, some (.candidateUser userId))
  | addCandidateGroup task groupId =>
    some (task, .addIdentityLink, some (.candidateGroup groupId))
  | _ => none

/-- What linking comes to: the answer and the store that is left. -/
def linkingOutcome (g : TaskGate) (caller : Caller) (task : Task) (op : Task.Operation)
    (link : Option Link) (s : Store) : Except AccessError Answer × Store :=
  if task.id = wildcard then (.error .noSuchTask, s)
  else if task.isEligible = false then (.ok .done, s)
  else
    match link.filter Link.isReserved with
    | some l => (.error (.reserved l.target), s)
    | none =>
      if ¬ g.policy.Admits s.ledger caller task op then
        (.error (.denied ((g.policy.requirement task op).denial caller)), s)
      else
        match link.filter Link.isPresent with
        | none => (.ok .done, s)
        | some l =>
          -- an identifier is handed out for the grant, whether it is saved or not
          if task.id = "" then
            (.error (.store (.fault (.malformedRecord (.numbered s.minted) .emptyResource))),
              { s with minted := s.minted + 1 })
          else
            (.ok .done,
              { s with
                ledger := s.ledger.insert
                  (.ofHolder (.numbered s.minted) .grant .task task.id l.holder
                    (Permission.read.mask ∪ (g.grants.configured l.holder.kind).mask ∪
                      g.grants.additional))
                minted := s.minted + 1 })

namespace Call

variable {call : Call}

/-- What a call that links asks for, links and is refused for. -/
theorem of_linking? (h : call.linking? = some (task, op, link)) :
    call.asks = [(task, op)] ∧ op ≠ .create ∧ call.ended = [] ∧
      call.linked = task.linked link.toList ∧
      call.refusal? =
        (task.refusal? op).or ((task.linked link.toList).findSome? fun p => p.2.refusal?) := by
  -- first all but the refusal, which is then the same for all of these calls
  have hcall : call.asks = [(task, op)] ∧ op ≠ .create ∧ call.ended = [] ∧
      call.linked = task.linked link.toList ∧
      call.refusal? = (call.asks.findSome? fun q => q.1.refusal? q.2).or
        (call.linked.findSome? fun p => p.2.refusal?) := by
    cases call <;> cases h
    case setAssignee userId =>
      exact ⟨rfl, by decide, rfl, Task.linked_presentId_map task userId fun _ => rfl, rfl⟩
    case setOwner userId =>
      exact ⟨rfl, by decide, rfl, Task.linked_presentId_map task userId fun _ => rfl, rfl⟩
    case claim userId =>
      exact ⟨rfl, by decide, rfl, Task.linked_presentId_map task userId fun _ => rfl, rfl⟩
    all_goals exact ⟨rfl, by decide, rfl, rfl, rfl⟩
  obtain ⟨hasks, hop, hended, hlinked, hrefusal⟩ := hcall
  rw [findSome?_refusal?_asks hasks, hlinked] at hrefusal
  exact ⟨hasks, hop, hended, hlinked, hrefusal⟩

/-- On a task under authorization the wildcard is refused before anything else is looked at. -/
theorem refusal?_of_linking? (h : call.linking? = some (task, op, link)) (hid : task.id ≠ wildcard)
    (htask : task.isEligible = true) :
    call.refusal? = (link.filter Link.isReserved).map fun l => .reserved l.target := by
  obtain ⟨-, -, -, -, hrefusal⟩ := of_linking? h
  have hnone : task.refusal? op = none := by rw [Task.refusal?, if_neg fun hw => hid hw.2]
  rw [hrefusal, hnone, Option.none_or, Task.findSome?_refusal?_linked htask]
  cases link with
  | none => rfl
  | some l =>
    rw [Option.toList_some, List.findSome?_singleton, Link.refusal?_eq]
    cases hl : l.isReserved <;> simp [Option.filter, hl]

/-- **A call that links has the first outcome that applies.** -/
theorem run_perform_of_linking? (hs : s.Works) (h : call.linking? = some (task, op, link))
    (caller : Caller) :
    Action.run (call.perform g caller) s = g.linkingOutcome caller task op link s := by
  obtain ⟨hasks, hop, hended, hlinked, hrefusal⟩ := of_linking? h
  rw [run_perform_of_ended_eq_nil hs hasks hended, linkingOutcome]
  by_cases hid : task.id = wildcard
  · rw [if_pos hid, hrefusal, Task.refusal?, if_pos ⟨hop, hid⟩]
    rfl
  rw [if_neg hid]
  cases htask : task.isEligible with
  | false =>
    -- nothing is required, and nobody is linked
    have hnobody : task.linked link.toList = [] := by simp [Task.linked, htask]
    have hnone : call.refusal? = none := by
      rw [hrefusal, hnobody, Task.refusal?, if_neg fun hw => hid hw.2]
      rfl
    have hmet : (g.policy.requirement task op).Met s.ledger caller := by
      rw [Policy.requirement_of_isEligible_eq_false htask]
      exact fun hne => absurd rfl hne
    rw [hnone, hlinked, hnobody]
    simp [hmet]
  | true =>
    have hmet : (g.policy.requirement task op).Met s.ledger caller ↔
        g.policy.Admits s.ledger caller task op := Policy.met_requirement_iff_admits hop htask
    rw [if_neg (by decide : ¬ true = false), refusal?_of_linking? h hid htask]
    cases link.filter Link.isReserved with
    | some l => rfl
    | none =>
      simp only [Option.map_none]
      by_cases hadmits : g.policy.Admits s.ledger caller task op
      · rw [if_pos (hmet.2 hadmits), if_neg (not_not.2 hadmits), hlinked, Task.linked_toList htask]
        cases link.filter Link.isPresent with
        | none => simp
        | some l =>
          have hne : ((some l).map fun l => (task, l)).toList ≠ [] := List.cons_ne_nil _ _
          by_cases hempty : task.id = ""
          · rw [if_pos ⟨hempty, hne⟩]
            simp only [if_pos hempty]
          · rw [if_neg fun h => hempty h.1]
            simp only [if_neg hempty, ← DefaultGrants.permissions_eq]
            rfl
      · rw [if_neg fun h => hadmits (hmet.1 h), if_pos hadmits]

end Call

/-- A link that is granted has its grant saved; where linking fails, or nobody is linked, the
records are as before. -/
theorem of_linkingOutcome (hs : s.Works) {x : Except AccessError Answer} {s' : Store}
    (h : g.linkingOutcome caller task op link s = (x, s')) :
    s'.ledger = s.ledger ∨ x = .ok .done ∧ ∃ l ∈ link, s.GrantSaved g.grants task l s' := by
  have hkept : ∀ {y : Except AccessError Answer} {s₁ : Store}, (y, s₁) = (x, s') →
      s₁.ledger = s.ledger → s'.ledger = s.ledger := by
    intro y s₁ heq hledger
    obtain rfl : s₁ = s' := congrArg Prod.snd heq
    exact hledger
  unfold linkingOutcome at h
  by_cases hid : task.id = wildcard
  · rw [if_pos hid] at h
    exact .inl (hkept h rfl)
  rw [if_neg hid] at h
  by_cases hcase : task.isEligible = false
  · rw [if_pos hcase] at h
    exact .inl (hkept h rfl)
  rw [if_neg hcase] at h
  cases hreserved : link.filter Link.isReserved with
  | some l =>
    rw [hreserved] at h
    exact .inl (hkept h rfl)
  | none =>
    simp only [hreserved] at h
    by_cases hadmits : g.policy.Admits s.ledger caller task op
    · rw [if_neg (not_not.2 hadmits)] at h
      cases hpresent : link.filter Link.isPresent with
      | none =>
        rw [hpresent] at h
        exact .inl (hkept h rfl)
      | some l =>
        obtain ⟨rfl, hnamed⟩ := Option.filter_eq_some_iff.1 hpresent
        simp only [hpresent] at h
        by_cases hempty : task.id = ""
        · rw [if_pos hempty] at h
          exact .inl (hkept h rfl)
        · rw [if_neg hempty] at h
          cases h
          have hwell : (g.grants.grantFor (.numbered s.minted) task l).WellFormed :=
            DefaultGrants.wellFormed_grantFor hnamed hempty
          rw [DefaultGrants.grantFor, DefaultGrants.permissions_eq] at hwell
          exact .inr ⟨rfl, l, rfl, _, (hs.withMinted _).run_save hwell⟩
    · rw [if_pos hadmits] at h
      exact .inl (hkept h rfl)

/-- **Linking has one outcome and one effect.**  Over a store in memory, a call of a gate that is
to link somebody to a task has the first outcome that applies: there is no task of that id; or
the task belongs to a case, and nothing is done; or the wildcard is refused, in the capacity in
which it is named; or the caller is denied, who is checked and holds none of the accepted
permissions, neither on the task nor under its other name on the definition; or nobody is
named, and nothing is done; or the grant is malformed, as the task has no id; or the link is
granted.  The grant is saved then, with what users or groups are granted, and nothing else is;
in all other cases the records are as before. -/
theorem linking_has_one_outcome (hs : s.Works) (g : TaskGate) (caller : Caller) (task : Task)
    (op : Task.Operation) (link : Option Link) :
    (∀ call : Call, call.linking? = some (task, op, link) →
      Action.run (call.perform g caller) s = g.linkingOutcome caller task op link s) ∧
      ∀ (x : Except AccessError Answer) (s' : Store),
        g.linkingOutcome caller task op link s = (x, s') →
          s'.ledger = s.ledger ∨ x = .ok .done ∧ ∃ l ∈ link, s.GrantSaved g.grants task l s' := by
  constructor
  · intro call hcall
    exact call.run_perform_of_linking? hs hcall caller
  · intro x s' h
    exact of_linkingOutcome hs h

/-- One group may update the tasks of a process. -/
def updaterOfTasks : Ledger :=
  [.ofHolder ⟨1⟩ .grant .processDefinition "invoice" (.group "sales")
    Permission.updateTask.mask]

/-- A user of the group makes another group candidate for a task of the process, and a user of no
group is told that the wildcard cannot be the assignee before being denied anything. -/
theorem linking_has_one_outcome_updaterOfTasks :
    (Store.ofLedger updaterOfTasks).Works ∧
      (Call.addIdentityLink ⟨"t1", .process "invoice" "p1"⟩ (.candidateGroup "hr")).linking? =
        some (⟨"t1", .process "invoice" "p1"⟩, .addIdentityLink, some (.candidateGroup "hr")) ∧
      Action.run ((Call.addIdentityLink ⟨"t1", .process "invoice" "p1"⟩ (.candidateGroup "hr")).perform
          standard (.authenticated ⟨"demo", ["sales"]⟩)) (.ofLedger updaterOfTasks) =
        (.ok .done,
          { ledger := updaterOfTasks ++ [.ofHolder (.numbered 0) .grant .task "t1" (.group "hr")
              (Permission.read.mask ∪ Permission.taskWork.mask ∪ ∅)]
            minted := 1 }) ∧
      Action.run ((Call.delegate ⟨"t1", .process "invoice" "p1"⟩ wildcard).perform standard
          (.authenticated ⟨"mary", []⟩)) (.ofLedger updaterOfTasks) =
        (.error (.reserved .assignee), .ofLedger updaterOfTasks) := by
  have hs : (Store.ofLedger updaterOfTasks).Works := ⟨rfl, rfl⟩
  have hadmits : standard.policy.Admits updaterOfTasks (.authenticated ⟨"demo", ["sales"]⟩)
      ⟨"t1", .process "invoice" "p1"⟩ .addIdentityLink := by decide +kernel
  refine ⟨hs, rfl, ?_, ?_⟩
  · rw [(linking_has_one_outcome hs standard _ _ _ _).1 _ rfl, linkingOutcome, if_neg (by decide),
      if_neg (by decide)]
    show (if ¬ standard.policy.Admits updaterOfTasks _ _ _ then _ else _) = _
    rw [if_neg (not_not.2 hadmits)]
    rfl
  · rw [(linking_has_one_outcome hs standard _ _ _ _).1 _ rfl]
    rfl

end TaskGate

end TaskAccess
