import TaskAccess.Proofs.Survival

/-!
# Records on every task

A record on the wildcard counts for every resource of its type.  Linking to a task
and ending a task refuse the wildcard for a task id, and so do all checks of a
caller but one: that for creating.  A new task can be saved under the wildcard, and
then its owner and assignee are granted what they are granted on every task.  That is
the only way for a session to touch the records on the wildcard, and it only adds.

## Main definitions

* `Ledger.onEvery` — the records on the wildcard.
* `TaskGate.Step.GrantsOnEvery` — a step saves a new task under the wildcard, with an
  owner or an assignee who is granted something new by that.

## Main results

* `holds_onEvery_iff` — what is held on every resource is held by these records.
* `TaskGate.onEvery_run_eq_iff` — **a session leaves the records on the wildcard alone
  exactly if no step grants on every task.**
* `TaskGate.onEvery_run_ne_of_saveTask` — a session that does grant there.
-/

namespace TaskAccess

namespace Ledger

/-- The records that count for every resource. -/
def onEvery (l : Ledger) : Ledger := l.select fun slot => isWildcard slot.resourceId

theorem mem_onEvery_iff {l : Ledger} {r : Record} :
    r ∈ l.onEvery ↔ r ∈ l ∧ r.resourceId = wildcard := by
  simp [onEvery, select, isWildcard, Record.slot]

theorem onEvery_insert_of_ne {r : Record} (h : r.resourceId ≠ wildcard) (l : Ledger) :
    (l.insert r).onEvery = l.onEvery := by
  rw [onEvery, select_insert, if_neg (by simpa [isWildcard, Record.slot] using h), onEvery]

theorem onEvery_insert_eq_iff {r : Record} (h : r.resourceId = wildcard) (l : Ledger) :
    (l.insert r).onEvery = l.onEvery ↔ l.Covers r := by
  have hr : isWildcard r.slot.resourceId = true := by simp [isWildcard, Record.slot, h]
  rw [onEvery, select_insert, if_pos hr, onEvery, insert_eq_self_iff, covers_select_iff hr]

/-- Whether a record on the wildcard is covered can be read off those records alone. -/
theorem covers_congr_of_onEvery_eq {l m : Ledger} {r : Record} (h : r.resourceId = wildcard)
    (hlm : l.onEvery = m.onEvery) : l.Covers r ↔ m.Covers r := by
  have hr : isWildcard r.slot.resourceId = true := by simp [isWildcard, Record.slot, h]
  rw [← covers_select_iff (l := l) (p := fun slot => isWildcard slot.resourceId) hr,
    ← covers_select_iff (l := m) (p := fun slot => isWildcard slot.resourceId) hr]
  exact iff_of_eq (congrArg (Covers · r) hlm)

/-- Dropping the records of resources does not touch those on the wildcard, unless it
is among the resources. -/
theorem onEvery_without {s : Store} {ids : List String} (h : wildcard ∉ ids) :
    (s.without ids).ledger.onEvery = s.ledger.onEvery := by
  refine Store.select_without fun slot hslot => ?_
  rw [show slot.resourceId = wildcard by simpa [isWildcard] using hslot]
  exact h

end Ledger

/-- What is held on every resource is held by the records on the wildcard. -/
theorem holds_onEvery_iff {l : Ledger} {i : Identity} {c : Check} (hc : c.target = .any) :
    Holds l.onEvery i c ↔ Holds l i c := by
  have hid : ∀ r : Record, r.AppliesTo i c.resourceType c.target → r.resourceId = wildcard := by
    intro r hr
    rcases hr.resource_id with h | h
    · exact h
    · rw [hc] at h
      cases h
  constructor
  · intro h bit hbit
    obtain ⟨⟨r, hr, happ, hk, hm⟩, hrev⟩ := h bit hbit
    refine ⟨⟨r, (Ledger.mem_onEvery_iff.1 hr).1, happ, hk, hm⟩, fun r hr happ => ?_⟩
    exact hrev r (Ledger.mem_onEvery_iff.2 ⟨hr, hid r happ⟩) happ
  · intro h bit hbit
    obtain ⟨⟨r, hr, happ, hk, hm⟩, hrev⟩ := h bit hbit
    refine ⟨⟨r, Ledger.mem_onEvery_iff.2 ⟨hr, hid r happ⟩, happ, hk, hm⟩, fun r hr happ => ?_⟩
    exact hrev r (Ledger.mem_onEvery_iff.1 hr).1 happ

/-! ### Granting links -/

section Grants

variable {s : Store} {g : DefaultGrants}

/-- The grants of links change nothing on the wildcard exactly if those of them that
are there are covered to begin with. -/
theorem Store.onEvery_withGrants_eq_iff {links : List (Task × Link)} :
    (s.withGrants g links).ledger.onEvery = s.ledger.onEvery ↔
      ∀ p ∈ links, p.1.id = wildcard →
        s.ledger.Covers (g.grantFor (.numbered s.minted) p.1 p.2) := by
  induction links generalizing s with
  | nil => simp
  | cons p rest ih =>
    -- the ledger grows twice, so it is the same in the end if it is the same each time
    have hone : s.ledger.onEvery.GrowsTo (s.withGrant g p).ledger.onEvery :=
      (Ledger.growsTo_insert _ _).select _
    have htwo : (s.withGrant g p).ledger.onEvery.GrowsTo
        ((s.withGrant g p).withGrants g rest).ledger.onEvery :=
      (Store.growsTo_withGrants rest).select _
    have hsplit : ((s.withGrant g p).withGrants g rest).ledger.onEvery = s.ledger.onEvery ↔
        (s.withGrant g p).ledger.onEvery = s.ledger.onEvery ∧
          ((s.withGrant g p).withGrants g rest).ledger.onEvery =
            (s.withGrant g p).ledger.onEvery := by
      constructor
      · intro h
        have hp : (s.withGrant g p).ledger.onEvery = s.ledger.onEvery :=
          (h ▸ htwo).antisymm hone
        exact ⟨hp, h.trans hp.symm⟩
      · rintro ⟨hp, h⟩
        exact h.trans hp
    have hfirst : (s.withGrant g p).ledger.onEvery = s.ledger.onEvery ↔
        (p.1.id = wildcard → s.ledger.Covers (g.grantFor (.numbered s.minted) p.1 p.2)) := by
      by_cases hw : p.1.id = wildcard
      · have hiff := Ledger.onEvery_insert_eq_iff
          (r := g.grantFor (.numbered s.minted) p.1 p.2) hw s.ledger
        exact hiff.trans ⟨fun h _ => h, fun h => h hw⟩
      · have heq := Ledger.onEvery_insert_of_ne
          (r := g.grantFor (.numbered s.minted) p.1 p.2) hw s.ledger
        exact ⟨fun _ h => absurd h hw, fun _ => heq⟩
    rw [Store.withGrants_cons, hsplit, hfirst, ih, List.forall_mem_cons]
    refine and_congr_right fun hp => forall₂_congr fun q _ => imp_congr_right fun hq => ?_
    -- what is covered does not depend on the identifier of the grant
    exact Ledger.covers_congr_of_onEvery_eq
      (r := g.grantFor (.numbered s.minted) q.1 q.2) hq (hfirst.2 hp)

end Grants

/-! ### Steps -/

/-- The links of a task that is saved all name somebody. -/
theorem TaskSave.isPresent_of_mem_links {save : TaskSave} {link : Link} (h : link ∈ save.links) :
    link.isPresent = true := by
  have hpresent : ∀ {id : Option String} {x : String}, presentId id = some x → ¬ x.isEmpty := by
    intro id x hx
    have hp := (Option.filter_eq_some_iff.1 hx).2
    simpa using hp
  simp only [links, List.mem_append, Option.mem_toList,
    Option.map_eq_some_iff] at h
  rcases h with ⟨x, hx, rfl⟩ | ⟨x, hx, rfl⟩
  · simpa [Link.isPresent, Link.owner, Holder.user] using hpresent hx
  · simpa [Link.isPresent, Link.assignee, Holder.user] using hpresent hx

namespace TaskGate

variable {g : TaskGate} {s : Store}

/-- The step saves a new task under the wildcard, and its owner or its assignee is
granted on every task what the records do not hold yet. -/
def Step.GrantsOnEvery (g : TaskGate) (step : Step) (s : Store) : Prop :=
  ∃ task save, step.call = .saveTask task save ∧ save.isNew = true ∧ task.id = wildcard ∧
    task.isEligible = true ∧ (Action.run (g.saveTask step.caller task save) s).1 = .ok () ∧
    ∃ link ∈ save.links, ¬ s.ledger.Covers (g.grants.grantFor (.numbered s.minted) task link)

theorem Call.onEvery_outcome_eq_iff {call : Call} (h : call.Proper) :
    (call.outcome g s).ledger.onEvery = s.ledger.onEvery ↔
      ∀ p ∈ call.linked, p.1.id = wildcard →
        s.ledger.Covers (g.grants.grantFor (.numbered s.minted) p.1 p.2) := by
  rw [Call.outcome, Ledger.onEvery_without h.ended_ne_wildcard, Store.onEvery_withGrants_eq_iff]

/-- No call takes anything from the records on the wildcard. -/
theorem Call.Effect.growsTo_onEvery {call : Call} {p : Except AccessError Answer × Store}
    (h : call.Effect g s p) : s.ledger.onEvery.GrowsTo p.2.ledger.onEvery := by
  cases h with
  | failed e n => exact .refl _
  | succeeded x hproper =>
    show s.ledger.onEvery.GrowsTo (call.outcome g s).ledger.onEvery
    rw [Call.outcome, Ledger.onEvery_without hproper.ended_ne_wildcard]
    exact (Store.growsTo_withGrants call.linked).select _

/-- A step leaves the records on the wildcard alone unless it grants on every task. -/
theorem Step.onEvery_perform_eq_iff (hs : s.Works) (step : Step) :
    (Action.run (step.call.perform g step.caller) s).2.ledger.onEvery = s.ledger.onEvery ↔
      ¬ step.GrantsOnEvery g s := by
  have heffect := step.call.effect_perform (g := g) hs step.caller
  -- the answer of saving a task is needed below, when the run is no longer in sight
  have hanswer : ∀ task save, step.call = .saveTask task save →
      (Action.run (step.call.perform g step.caller) s).1 =
        (Action.run (g.saveTask step.caller task save) s).1.map fun _ => .done := by
    intro task save h
    rw [h, Call.perform, Action.run_map]
  generalize Action.run (step.call.perform g step.caller) s = p at heffect hanswer
  cases heffect with
  | failed e n =>
    refine iff_of_true rfl ?_
    rintro ⟨task, save, hcall, -, -, -, hok, -⟩
    have h := hanswer task save hcall
    rw [hok] at h
    cases h
  | succeeded x hproper =>
    rw [Call.onEvery_outcome_eq_iff hproper, ← not_iff_not, not_not]
    constructor
    · intro h
      obtain ⟨p, hp, hw, hnew⟩ : ∃ p ∈ step.call.linked, p.1.id = wildcard ∧
          ¬ s.ledger.Covers (g.grants.grantFor (.numbered s.minted) p.1 p.2) := by
        simpa only [not_forall, exists_prop] using h
      -- a task under the wildcard can only be a new one, so the call saves it
      have hcreates := hproper.creates_of_wildcard p hp hw
      cases hcall : step.call with
      | saveTask task save =>
        rw [hcall] at hp hcreates
        obtain ⟨htask, hpt, hlink, -⟩ := Task.mem_linked_iff.1 hp
        rw [hpt] at hw hnew
        refine ⟨task, save, hcall, hcreates, hw, htask, ?_, p.2, hlink, hnew⟩
        have h := hanswer task save hcall
        cases hrun : (Action.run (g.saveTask step.caller task save) s).1 with
        | error e => rw [hrun] at h; cases h
        | ok u => rfl
      | _ => rw [hcall] at hcreates; exact hcreates.elim
    · rintro ⟨task, save, hcall, -, hw, htask, -, link, hlink, hnew⟩ h
      have hp : (task, link) ∈ step.call.linked := by
        rw [hcall]
        exact Task.mem_linked_iff.2
          ⟨htask, rfl, hlink, TaskSave.isPresent_of_mem_links hlink⟩
      exact hnew (h (task, link) hp hw)

/-! ### Sessions -/

theorem growsTo_onEvery_run (hs : s.Works) (steps : List Step) :
    s.ledger.onEvery.GrowsTo (g.run steps s).ledger.onEvery :=
  run_induction (P := fun s' => s.ledger.onEvery.GrowsTo s'.ledger.onEvery) hs (.refl _)
    (fun _ h heffect => h.trans heffect.growsTo_onEvery) steps

theorem onEvery_run_eq_iff_forall (hs : s.Works) (steps : List Step) :
    (g.run steps s).ledger.onEvery = s.ledger.onEvery ↔
      ∀ pre step post, steps = pre ++ step :: post →
        ¬ step.GrantsOnEvery g (g.run pre s) := by
  induction steps generalizing s with
  | nil =>
    refine iff_of_true rfl fun pre step post h => ?_
    exact absurd h.symm (List.append_ne_nil_of_right_ne_nil pre (List.cons_ne_nil step post))
  | cons step rest ih =>
    have heffect := step.call.effect_perform (g := g) hs step.caller
    have hworks := heffect.works hs
    have hstep := step.onEvery_perform_eq_iff (g := g) hs
    rw [run_cons, forall_append_cons_iff, run_nil, ← hstep]
    simp only [run_cons]
    rw [← ih hworks]
    constructor
    · intro h
      -- what the first step added would still be there
      have hgrows := growsTo_onEvery_run (g := g) hworks rest
      rw [h] at hgrows
      have hone := hgrows.antisymm heffect.growsTo_onEvery
      exact ⟨hone, h.trans hone.symm⟩
    · rintro ⟨hone, h⟩
      exact h.trans hone

/-- **A session leaves the records on the wildcard alone exactly if no step of it grants
on every task.**  In any case none of these records is removed or loses a permission;
and if no step grants on every task, then nobody holds more or less on every task than
before. -/
theorem onEvery_run_eq_iff (hs : s.Works) (steps : List Step) :
    s.ledger.onEvery.GrowsTo (g.run steps s).ledger.onEvery ∧
      ((g.run steps s).ledger.onEvery = s.ledger.onEvery ↔
        ∀ pre step post, steps = pre ++ step :: post →
          ¬ step.GrantsOnEvery g (g.run pre s)) ∧
      ((∀ pre step post, steps = pre ++ step :: post →
          ¬ step.GrantsOnEvery g (g.run pre s)) →
        ∀ i c, c.target = .any →
          (Holds (g.run steps s).ledger i c ↔ Holds s.ledger i c)) := by
  refine ⟨growsTo_onEvery_run hs steps, onEvery_run_eq_iff_forall hs steps, ?_⟩
  intro h i c hc
  rw [← holds_onEvery_iff hc, (onEvery_run_eq_iff_forall hs steps).2 h, holds_onEvery_iff hc]

/-- A task that gets an assignee and is completed leaves the records on the wildcard
alone. -/
theorem onEvery_run_eq_of_complete :
    (Store.ofLedger revokedOnTask).Works ∧
      (standard.run [⟨.system, .setAssignee ⟨"t1", .standalone⟩ (some "demo")⟩,
          ⟨.system, .complete ⟨"t1", .standalone⟩⟩] (.ofLedger revokedOnTask)).ledger.onEvery =
        revokedOnTask.onEvery := by
  have hs : (Store.ofLedger revokedOnTask).Works := ⟨rfl, rfl⟩
  obtain ⟨-, hiff, -⟩ := onEvery_run_eq_iff (g := standard) hs
    [⟨.system, .setAssignee ⟨"t1", .standalone⟩ (some "demo")⟩,
      ⟨.system, .complete ⟨"t1", .standalone⟩⟩]
  refine ⟨hs, hiff.2 ?_⟩
  rw [forall_append_cons_iff, forall_append_cons_iff]
  refine ⟨?_, ?_, fun pre step post h => absurd h (by simp)⟩
  · rintro ⟨task, save, hcall, -⟩
    cases hcall
  · rintro ⟨task, save, hcall, -⟩
    cases hcall

/-- A new task under the wildcard, with an owner. -/
def saveUnderWildcard : Step where
  caller := .system
  call := .saveTask ⟨wildcard, .standalone⟩ { isNew := true, owner := some "demo" }

/-- Saving a new task under the wildcard lets its owner read every task. -/
theorem onEvery_run_ne_of_saveTask :
    (Store.ofLedger []).Works ∧
      (standard.run [saveUnderWildcard] (.ofLedger [])).ledger.onEvery ≠ Ledger.onEvery [] ∧
      ¬ Holds [] ⟨"demo", []⟩ ⟨.read, .task, .any, {}⟩ ∧
      Holds (standard.run [saveUnderWildcard] (.ofLedger [])).ledger ⟨"demo", []⟩
        ⟨.read, .task, .any, {}⟩ :=
  ⟨⟨rfl, rfl⟩, by decide, by decide, by decide⟩

end TaskGate

end TaskAccess
