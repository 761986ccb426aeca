import Mathlib.Data.List.Induction
import TaskAccess.Proofs.Resolution

/-!
# Decisions and denials

The decision on a requirement walks from each alternative to its owner, in the
resolver.  The report of a denial is expanded from the requirement alone: it drops
questions that were asked before, whatever lineage they came with.  The two agree,
because whether a question is answered with yes depends on the question only.

To say what the resolver asks, it is run here with a log.

## Main definitions

* `Requirement.Met` — some alternative is permitted, if there is anything to check.
* `Store.permitsLogged`, `Store.anyPermittedLogged` — the resolver, with the checks
  that it asks the store about.
* `Denial.Reports` — what a denial says of the requirement that was not met.

## Main results

* `Store.Works.decision_eq`, `Store.Works.require_eq` — the decision, and the denial.
* `map_missing_expanded` — every question is reported once, where it is first asked.
* `decision_agrees_with_denial` — **the decision and the report agree**.
-/

namespace TaskAccess

/-! ### The decision on a requirement -/

/-- The requirement is met: nothing is required, there is no identity to check, or
some alternative is permitted. -/
def Requirement.Met (r : Requirement) (l : Ledger) (caller : Caller) : Prop :=
  r.alternatives ≠ [] → ∀ i ∈ caller.checkedIdentity?, ∃ c ∈ r.alternatives, Permitted l i c

instance (r : Requirement) (l : Ledger) (caller : Caller) : Decidable (r.Met l caller) :=
  inferInstanceAs (Decidable (_ → _))

theorem Requirement.met_of_checkedIdentity?_eq_none {r : Requirement} {l : Ledger}
    {caller : Caller} (h : caller.checkedIdentity? = .none) : r.Met l caller := by
  intro _ i hi
  rw [h] at hi
  cases hi

theorem Requirement.met_iff_of_checkedIdentity?_eq_some {r : Requirement} {l : Ledger}
    {caller : Caller} {i : Identity} (h : caller.checkedIdentity? = some i)
    (hr : r.alternatives ≠ []) : r.Met l caller ↔ ∃ c ∈ r.alternatives, Permitted l i c := by
  constructor
  · intro hm
    exact hm hr i h
  · intro hc _ j hj
    rw [h, Option.mem_some_iff] at hj
    rwa [← hj]

namespace Store.Works

variable {s : Store}

/-- The alternatives are tried in order, and one that is permitted is enough. -/
theorem anyAuthorized_eq (hs : s.Works) {caller : Caller} {i : Identity}
    (h : caller.checkedIdentity? = some i) (cs : List Check) :
    s.anyAuthorized caller cs = .ok (decide (∃ c ∈ cs, Permitted s.ledger i c)) := by
  -- in the order in which the alternatives are tried
  induction cs with
  | nil => simp [Store.anyAuthorized]
  | cons c rest ih =>
    rw [Store.anyAuthorized, hs.isAuthorized_eq h, ih]
    by_cases hc : Permitted s.ledger i c
    · simp [hc, bind, Except.bind, pure, Except.pure]
    · simp [hc, bind, Except.bind]

/-- **The decision on a requirement.** -/
theorem decision_eq (hs : s.Works) (caller : Caller) (r : Requirement) :
    s.decision caller r = .ok (.ofBool (decide (r.Met s.ledger caller))) := by
  rw [Store.decision]
  by_cases hr : r.alternatives = []
  · have hm : r.Met s.ledger caller := fun hne => absurd hr hne
    simp [Requirement.isEmpty, hr, hm, Decision.ofBool]
  · have he : r.isEmpty = false := by simpa [Requirement.isEmpty] using hr
    cases hi : caller.checkedIdentity? with
    | none =>
      have hm : r.Met s.ledger caller := Requirement.met_of_checkedIdentity?_eq_none hi
      simp [hm, Decision.ofBool]
    | some i =>
      rw [hs.anyAuthorized_eq hi]
      simp only [he, Option.isNone_some, Bool.or_self, Bool.false_eq_true, if_false,
        Requirement.met_iff_of_checkedIdentity?_eq_some hi hr]
      rfl

/-- **A requirement that is not met is denied**, and nothing else goes wrong. -/
theorem require_eq (hs : s.Works) (caller : Caller) (r : Requirement) :
    s.require caller r =
      if r.Met s.ledger caller then .ok () else .error (.denied (r.denial caller)) := by
  cases hc : caller.checksEnabled with
  | false =>
    have hm : r.Met s.ledger caller :=
      Requirement.met_of_checkedIdentity?_eq_none (Caller.checkedIdentity?_eq_none_iff.2 (.inr hc))
    rw [Store.require, hc, if_pos hm]
    rfl
  | true =>
    rw [Store.require, hc, hs.decision_eq]
    by_cases hm : r.Met s.ledger caller
    · simp [hm, Decision.ofBool, bind, Except.bind, pure, Except.pure]
    · simp [hm, Decision.ofBool, bind, Except.bind, throw, throwThe, MonadExceptOf.throw]

end Store.Works

/-- Whoever is not checked meets every requirement, whatever the store does. -/
theorem Store.require_of_checkedIdentity?_eq_none {s : Store} {caller : Caller}
    (h : caller.checkedIdentity? = none) (r : Requirement) : s.require caller r = .ok () := by
  cases hc : caller.checksEnabled with
  | false => rw [Store.require, hc]; rfl
  | true =>
    have hd : s.decision caller r = .ok .allowed := by simp [Store.decision, h]
    rw [Store.require, hc, hd]
    rfl

/-- Nothing is required by no check, whatever the store does. -/
theorem Store.require_of_alternatives_eq_nil {s : Store} {r : Requirement}
    (h : r.alternatives = []) (caller : Caller) : s.require caller r = .ok () := by
  cases hc : caller.checksEnabled with
  | false => rw [Store.require, hc]; rfl
  | true =>
    have hd : s.decision caller r = .ok .allowed := by
      simp [Store.decision, Requirement.isEmpty, h]
    rw [Store.require, hc, hd]
    rfl

/-! ### What the resolver asks -/

namespace Store

/-- The resolver with a log: the answer to a check, and the checks that the store was
asked about, in order. -/
def permitsLogged (s : Store) (i : Identity) (c : Check) : Except StoreError Bool × List Check :=
  match s.holds i c with
  | .error e => (.error e, [c])
  | .ok true => (.ok true, [c])
  | .ok false =>
    match _h : c.fallback? with
    | none => (.ok false, [c])
    | some next => ((s.permitsLogged i next).1, c :: (s.permitsLogged i next).2)
termination_by c.resourceType.rank
decreasing_by all_goals exact Check.rank_fallback?_lt ‹_›

/-- The alternatives with a log: they are asked in order, until one is permitted. -/
def anyPermittedLogged (s : Store) (i : Identity) :
    List Check → Except StoreError Bool × List Check
  | [] => (.ok false, [])
  | c :: rest =>
    match s.permitsLogged i c with
    | (.ok false, asked) =>
      ((s.anyPermittedLogged i rest).1, asked ++ (s.anyPermittedLogged i rest).2)
    | answered => answered

theorem permitsLogged_of_fallback?_eq_none {s : Store} {i : Identity} {c : Check}
    (h : s.holds i c = .ok false) (hf : c.fallback? = none) :
    s.permitsLogged i c = (.ok false, [c]) := by
  rw [permitsLogged, h]
  dsimp only
  split
  · rfl
  · next hsome => rw [hf] at hsome; cases hsome

theorem permitsLogged_of_fallback?_eq_some {s : Store} {i : Identity} {c next : Check}
    (h : s.holds i c = .ok false) (hf : c.fallback? = some next) :
    s.permitsLogged i c = ((s.permitsLogged i next).1, c :: (s.permitsLogged i next).2) := by
  rw [permitsLogged, h]
  dsimp only
  split
  · next hnone => rw [hf] at hnone; cases hnone
  · next next' hsome =>
    rw [hf] at hsome
    cases hsome
    rfl

/-- The log does not change the answer. -/
theorem fst_permitsLogged (s : Store) (i : Identity) (c : Check) :
    (s.permitsLogged i c).1 = s.permits i c := by
  -- the log and the resolver walk to the same owner
  induction c using Check.chain.induct with
  | case1 c ih =>
    rcases hholds : s.holds i c with e | b
    · rw [permitsLogged, permits, hholds]
    · cases b with
      | true => rw [permitsLogged, permits, hholds]
      | false =>
        cases hf : c.fallback? with
        | none =>
          rw [permitsLogged_of_fallback?_eq_none hholds hf, permits_of_fallback?_eq_none hholds hf]
        | some next =>
          rw [permitsLogged_of_fallback?_eq_some hholds hf,
            permits_of_fallback?_eq_some hholds hf]
          exact ih next hf

/-- The log does not change the answer. -/
theorem fst_anyPermittedLogged (s : Store) {caller : Caller} {i : Identity}
    (h : caller.checkedIdentity? = some i) (cs : List Check) :
    (s.anyPermittedLogged i cs).1.mapError .store = s.anyAuthorized caller cs := by
  induction cs with
  | nil => rfl
  | cons c rest ih =>
    have hc : s.isAuthorized caller c = (s.permitsLogged i c).1.mapError .store := by
      rw [isAuthorized, h, fst_permitsLogged]
    rw [anyAuthorized, anyPermittedLogged, hc]
    rcases s.permitsLogged i c with ⟨_ | b, asked⟩
    · rfl
    · cases b with
      | true => rfl
      | false => exact ih

/-- A check that is not permitted is asked along its whole chain. -/
theorem Works.snd_permitsLogged {s : Store} (hs : s.Works) {i : Identity} {c : Check}
    (h : ¬ Permitted s.ledger i c) : (s.permitsLogged i c).2 = c.chain := by
  induction c using Check.chain.induct with
  | case1 c ih =>
    have hc : ¬ Holds s.ledger i c := fun hc => h (.held hc)
    have hholds : s.holds i c = .ok false := by rw [hs.holds_eq, decide_eq_false hc]
    cases hf : c.fallback? with
    | none =>
      rw [permitsLogged_of_fallback?_eq_none hholds hf, Check.chain_of_fallback?_eq_none hf]
    | some next =>
      rw [permitsLogged_of_fallback?_eq_some hholds hf, Check.chain_of_fallback?_eq_some hf,
        ih next hf fun hn => h (.owner hf hn)]

/-- If no alternative is permitted, all of their chains are asked. -/
theorem Works.snd_anyPermittedLogged {s : Store} (hs : s.Works) {i : Identity}
    {cs : List Check} (h : ∀ c ∈ cs, ¬ Permitted s.ledger i c) :
    (s.anyPermittedLogged i cs).2 = cs.flatMap Check.chain := by
  induction cs with
  | nil => rfl
  | cons c rest ih =>
    have hc : ¬ Permitted s.ledger i c := h c (by simp)
    have hans : s.permitsLogged i c = (.ok false, c.chain) := by
      rw [← hs.snd_permitsLogged hc]
      refine Prod.ext ?_ rfl
      rw [fst_permitsLogged, hs.permits_eq]
      simp [hc]
    rw [anyPermittedLogged, hans, List.flatMap_cons, ← ih fun d hd => h d (by simp [hd])]

end Store

/-! ### Every question once -/

theorem Permission.eq_of_name_eq {p q : Permission} (h : p.name = q.name) : p = q := by
  have hq : ofName? p.name = some q := ofName?_eq_some_iff.2 h.symm
  rw [ofName?_name] at hq
  exact Option.some.inj hq

/-- Checks ask the same question if they are reported in the same way. -/
theorem Check.sameQuestion_iff {a b : Check} :
    a.sameQuestion b = true ↔ a.missing = b.missing := by
  have htarget : a.target.id? = b.target.id? ↔ a.target = b.target := by
    cases a.target <;> cases b.target <;> simp [Target.id?]
  have hname : a.permission.name = b.permission.name ↔ a.permission = b.permission :=
    ⟨Permission.eq_of_name_eq, fun h => by rw [h]⟩
  simp only [sameQuestion, missing, Bool.and_eq_true, beq_iff_eq, Missing.mk.injEq, htarget, hname,
    and_assoc]

/-- What an identity holds depends on the question only, not on the lineage. -/
theorem holds_congr {l : Ledger} {i : Identity} {a b : Check} (h : a.missing = b.missing) :
    Holds l i a ↔ Holds l i b := by
  have hq := Check.sameQuestion_iff.2 h
  simp only [Check.sameQuestion, Bool.and_eq_true, beq_iff_eq] at hq
  obtain ⟨⟨hp, ht⟩, hid⟩ := hq
  rw [holds_iff_grants, holds_iff_grants, hp, ht, hid]

namespace Requirement

/-- What the checks of a requirement ask, with repetitions: the alternatives, then the
owners. -/
def questions (r : Requirement) : List Check :=
  r.alternatives ++ r.alternatives.flatMap fun c => c.chain.tail

theorem map_missing_addQuestion (asked : List Check) (c : Check) :
    (addQuestion asked c).map Check.missing =
      if c.missing ∈ asked.map Check.missing then asked.map Check.missing
      else asked.map Check.missing ++ [c.missing] := by
  have hany : (asked.any fun a => a.sameQuestion c) = true ↔
      c.missing ∈ asked.map Check.missing := by
    simp only [List.any_eq_true, Check.sameQuestion_iff, List.mem_map]
  rw [addQuestion]
  by_cases h : c.missing ∈ asked.map Check.missing
  · rw [if_pos (hany.2 h), if_pos h]
  · rw [if_neg fun hc => h (hany.1 hc), if_neg h, List.map_append, List.map_singleton]

/-- **Every question is reported once, where it is first asked.** -/
theorem map_missing_expanded (r : Requirement) :
    r.expanded.map Check.missing = (r.questions.map Check.missing).eraseDups := by
  rw [expanded, ← questions]
  -- the questions are added one by one at the end
  induction r.questions using List.reverseRecOn with
  | nil => rfl
  | append_singleton cs c ih =>
    rw [List.foldl_append, List.foldl_cons, List.foldl_nil, map_missing_addQuestion, ih,
      List.map_append, List.map_singleton, List.eraseDups_append]
    simp only [List.mem_eraseDups]
    by_cases h : c.missing ∈ cs.map Check.missing
    · have hnone : [c.missing].removeAll (cs.map Check.missing) = [] := by
        simpa [List.removeAll] using h
      rw [if_pos h, hnone, List.eraseDups_nil, List.append_nil]
    · have hone : [c.missing].removeAll (cs.map Check.missing) = [c.missing] := by
        simpa [List.removeAll] using h
      rw [if_neg h, hone, List.eraseDups_cons, List.filter_nil, List.eraseDups_nil]

theorem nodup_map_missing_expanded (r : Requirement) :
    (r.expanded.map Check.missing).Nodup := by
  rw [expanded, ← questions]
  -- a question is added only if it is not there yet
  induction r.questions using List.reverseRecOn with
  | nil => exact List.nodup_nil
  | append_singleton cs c ih =>
    rw [List.foldl_append, List.foldl_cons, List.foldl_nil, map_missing_addQuestion]
    split
    · exact ih
    · next h =>
      rw [List.nodup_append]
      refine ⟨ih, by simp, ?_⟩
      intro a ha b hb hab
      rw [List.mem_singleton.1 hb] at hab
      exact h (hab ▸ ha)

/-- The alternatives come first, then what is asked of owners and was not asked yet. -/
theorem map_missing_expanded_eq_append (r : Requirement) :
    r.expanded.map Check.missing =
      (r.alternatives.map Check.missing).eraseDups ++
        (((r.alternatives.flatMap fun c => c.chain.tail).map Check.missing).removeAll
          (r.alternatives.map Check.missing)).eraseDups := by
  rw [map_missing_expanded, questions, List.map_append, List.eraseDups_append]

theorem mem_questions_iff {r : Requirement} {step : Check} :
    step ∈ r.questions ↔ ∃ c ∈ r.alternatives, step ∈ c.chain := by
  have hchain : ∀ c : Check, step ∈ c.chain ↔ step = c ∨ step ∈ c.chain.tail := by
    intro c
    cases hf : c.fallback? with
    | none => simp [Check.chain_of_fallback?_eq_none hf]
    | some next => simp [Check.chain_of_fallback?_eq_some hf]
  simp only [questions, List.mem_append, List.mem_flatMap, hchain, and_or_left, exists_or]
  simp

theorem mem_map_missing_expanded_iff {r : Requirement} {m : Missing} :
    m ∈ r.expanded.map Check.missing ↔
      ∃ c ∈ r.alternatives, ∃ step ∈ c.chain, step.missing = m := by
  rw [map_missing_expanded, List.mem_eraseDups, List.mem_map]
  simp only [mem_questions_iff]
  constructor
  · rintro ⟨step, ⟨c, hc, hstep⟩, hm⟩
    exact ⟨c, hc, step, hstep, hm⟩
  · rintro ⟨c, hc, step, hstep, hm⟩
    exact ⟨step, ⟨c, hc, hstep⟩, hm⟩

/-- **The expansion decides**: an alternative is permitted exactly if some member of the
expansion is held on its own resource. -/
theorem exists_permitted_iff_exists_holds_expanded {r : Requirement} {l : Ledger}
    {i : Identity} :
    (∃ c ∈ r.alternatives, Permitted l i c) ↔ ∃ c ∈ r.expanded, Holds l i c := by
  constructor
  · rintro ⟨c, hc, hp⟩
    obtain ⟨step, hstep, hh⟩ := permitted_iff_exists_mem_chain.1 hp
    -- the expansion may have kept another check of the same question
    obtain ⟨kept, hkept, hm⟩ :=
      List.mem_map.1 (mem_map_missing_expanded_iff.2 ⟨c, hc, step, hstep, rfl⟩)
    exact ⟨kept, hkept, (holds_congr hm).2 hh⟩
  · rintro ⟨kept, hkept, hh⟩
    obtain ⟨c, hc, step, hstep, hm⟩ :=
      mem_map_missing_expanded_iff.1 (List.mem_map_of_mem hkept)
    exact ⟨c, hc, permitted_iff_exists_mem_chain.2 ⟨step, hstep, (holds_congr hm).2 hh⟩⟩

theorem map_missing_expanded_ne_nil {r : Requirement} (hr : r.alternatives ≠ []) :
    r.expanded.map Check.missing ≠ [] := by
  obtain ⟨c, hc⟩ := List.exists_mem_of_ne_nil _ hr
  have hmem : c.missing ∈ r.expanded.map Check.missing := by
    refine mem_map_missing_expanded_iff.2 ⟨c, hc, c, ?_, rfl⟩
    cases hf : c.fallback? with
    | none => simp [Check.chain_of_fallback?_eq_none hf]
    | some next => simp [Check.chain_of_fallback?_eq_some hf]
  exact List.ne_nil_of_mem hmem

end Requirement

/-! ### The report of a denial -/

/-- What a denial to an identity says of the requirement that was not met. -/
structure Denial.Reports (d : Denial) (s : Store) (i : Identity) (r : Requirement) : Prop where
  /-- It names the user. -/
  userId_eq : d.userId = i.userId
  /-- It reports the expansion of the requirement. -/
  missing_eq : d.missing = r.expanded.map Check.missing
  missing_ne_nil : d.missing ≠ []
  nodup_missing : d.missing.Nodup
  /-- The alternatives come first, in their order, then what is asked of owners. -/
  missing_eq_append : d.missing =
    (r.alternatives.map Check.missing).eraseDups ++
      (((r.alternatives.flatMap fun c => c.chain.tail).map Check.missing).removeAll
        (r.alternatives.map Check.missing)).eraseDups
  /-- It reports what the resolver asked, and nothing else. -/
  mem_missing_iff : ∀ m, m ∈ d.missing ↔
    ∃ step ∈ (s.anyPermittedLogged i r.alternatives).2, step.missing = m
  /-- Nothing that it reports is held. -/
  not_held : ∀ c ∈ r.expanded, s.holds i c = .ok false

theorem Requirement.reports_denial {s : Store} (hs : s.Works) {caller : Caller} {i : Identity}
    (hi : caller.checkedIdentity? = some i) {r : Requirement} (hr : r.alternatives ≠ [])
    (hnot : ¬ ∃ c ∈ r.alternatives, Permitted s.ledger i c) :
    (r.denial caller).Reports s i r where
  userId_eq := by
    have hid : caller.identity = some i := by
      rw [Caller.checkedIdentity?] at hi
      split at hi
      · exact hi
      · cases hi
    rw [denial, hid]
    rfl
  missing_eq := rfl
  missing_ne_nil := map_missing_expanded_ne_nil hr
  nodup_missing := r.nodup_map_missing_expanded
  missing_eq_append := r.map_missing_expanded_eq_append
  mem_missing_iff := by
    intro m
    have hlog : (s.anyPermittedLogged i r.alternatives).2 = r.alternatives.flatMap Check.chain :=
      hs.snd_anyPermittedLogged fun c hc hp => hnot ⟨c, hc, hp⟩
    rw [hlog]
    refine mem_map_missing_expanded_iff.trans ?_
    simp only [List.mem_flatMap]
    constructor
    · rintro ⟨c, hc, step, hstep, hm⟩
      exact ⟨step, ⟨c, hc, hstep⟩, hm⟩
    · rintro ⟨step, ⟨c, hc, hstep⟩, hm⟩
      exact ⟨c, hc, step, hstep, hm⟩
  not_held := by
    intro c hc
    have hh : ¬ Holds s.ledger i c := fun hh =>
      hnot (exists_permitted_iff_exists_holds_expanded.2 ⟨c, hc, hh⟩)
    rw [hs.holds_eq]
    simp [hh]

/-- **The decision and the report agree.**  For a checked identity and a requirement of
some alternatives, a store in memory always decides.  The requirement is met exactly if
some member of its expansion is held on its own resource; otherwise it is denied with a
report of the expansion.  An empty requirement, and a caller who is not checked, never
fail. -/
theorem decision_agrees_with_denial {s : Store} (hs : s.Works) (caller : Caller)
    (r : Requirement) :
    (∀ i, caller.checkedIdentity? = some i → r.alternatives ≠ [] →
      (s.anyPermittedLogged i r.alternatives).1.mapError .store =
          s.anyAuthorized caller r.alternatives ∧
        ∃ decision, s.decision caller r = .ok decision ∧
          (decision = .allowed ↔ ∃ c ∈ r.expanded, s.holds i c = .ok true) ∧
          (decision = .allowed → s.require caller r = .ok ()) ∧
          (decision = .denied →
            ∃ d, s.require caller r = .error (.denied d) ∧ d.Reports s i r)) ∧
      (r.alternatives = [] ∨ caller.checkedIdentity? = none → s.require caller r = .ok ()) := by
  constructor
  · intro i hi hr
    have hmet := Requirement.met_iff_of_checkedIdentity?_eq_some (l := s.ledger) hi hr
    have hheld : r.Met s.ledger caller ↔ ∃ c ∈ r.expanded, s.holds i c = .ok true := by
      rw [hmet, Requirement.exists_permitted_iff_exists_holds_expanded]
      simp only [hs.holds_eq, Except.ok.injEq, decide_eq_true_eq]
    refine ⟨s.fst_anyPermittedLogged hi _, _, hs.decision_eq caller r, ?_⟩
    rw [← hheld, hs.require_eq]
    by_cases hm : r.Met s.ledger caller
    · simp [hm, Decision.ofBool]
    · have hreports := Requirement.reports_denial hs hi hr fun hp => hm (hmet.2 hp)
      simp only [hm, decide_false, Decision.ofBool, Bool.false_eq_true, if_false]
      exact ⟨by simp, by simp, fun _ => ⟨_, rfl, hreports⟩⟩
  · rintro (hr | hi)
    · exact Store.require_of_alternatives_eq_nil hr caller
    · exact Store.require_of_checkedIdentity?_eq_none hi r

/-- To update the task, or to assign it, where two lineages of the task are thought of. -/
def updateOrAssign : Requirement :=
  ⟨[⟨.update, .task, .only "t1", ⟨some "invoice", none⟩⟩,
    ⟨.taskAssign, .task, .only "t1", ⟨some "invoice", none⟩⟩,
    ⟨.update, .task, .only "t1", ⟨some "order", some "pi-1"⟩⟩]⟩

/-- The repeated alternative is reported once, and the owners of both lineages are. -/
theorem decision_agrees_with_denial_updateOrAssign :
    (Store.ofLedger revokedOnTask).Works ∧
      (Caller.authenticated ⟨"demo", ["sales"]⟩).checkedIdentity? = some ⟨"demo", ["sales"]⟩ ∧
      updateOrAssign.alternatives ≠ [] ∧
      ∃ d, (Store.ofLedger revokedOnTask).require (.authenticated ⟨"demo", ["sales"]⟩)
          updateOrAssign = .error (.denied d) ∧
        d.Reports (.ofLedger revokedOnTask) ⟨"demo", ["sales"]⟩ updateOrAssign ∧
        d.missing =
          [⟨"UPDATE", .task, some "t1"⟩, ⟨"TASK_ASSIGN", .task, some "t1"⟩,
            ⟨"UPDATE_TASK", .processDefinition, some "invoice"⟩,
            ⟨"TASK_ASSIGN", .processDefinition, some "invoice"⟩,
            ⟨"UPDATE_TASK", .processDefinition, some "order"⟩] := by
  have hs : (Store.ofLedger revokedOnTask).Works := ⟨rfl, rfl⟩
  have hne : updateOrAssign.alternatives ≠ [] := by decide
  have hexpanded : updateOrAssign.expanded.map Check.missing =
      [⟨"UPDATE", .task, some "t1"⟩, ⟨"TASK_ASSIGN", .task, some "t1"⟩,
        ⟨"UPDATE_TASK", .processDefinition, some "invoice"⟩,
        ⟨"TASK_ASSIGN", .processDefinition, some "invoice"⟩,
        ⟨"UPDATE_TASK", .processDefinition, some "order"⟩] := by
    decide +kernel
  have hnone : ¬ ∃ c ∈ updateOrAssign.expanded, Holds revokedOnTask ⟨"demo", ["sales"]⟩ c := by
    decide +kernel
  obtain ⟨-, decision, -, hallowed, -, hdenied⟩ :=
    (decision_agrees_with_denial hs (.authenticated ⟨"demo", ["sales"]⟩) updateOrAssign).1
      ⟨"demo", ["sales"]⟩ rfl hne
  have hdecision : decision = .denied := by
    cases decision with
    | denied => rfl
    | allowed =>
      obtain ⟨c, hc, hh⟩ := hallowed.1 rfl
      rw [hs.holds_eq] at hh
      exact absurd ⟨c, hc, of_decide_eq_true (Except.ok.inj hh)⟩ hnone
  obtain ⟨d, hd, hreports⟩ := hdenied hdecision
  exact ⟨hs, rfl, hne, d, hd, hreports, hreports.missing_eq.trans hexpanded⟩

end TaskAccess
