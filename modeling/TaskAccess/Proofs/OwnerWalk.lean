import Mathlib.Data.List.Chain
import TaskAccess.Proofs.Resolution

/-!
# The walk to the owners

A check that is not granted is asked again of the owner, and two loops take these steps.  The
resolver's loop goes on until a check is granted, the store fails, or there is no owner to ask; it
does not look whether it has been somewhere before.  The loop that collects a chain for a report
does look, and breaks off at a check that it has collected already.

The ids of owners are arbitrary: a definition may have the id of the task itself, or be every
definition.  What ends both loops is the rank of the types of resources, which falls with every
step, so that no check comes back and the guard of the second loop never meets one.

The resolver's loop is described by its runs, which are finite derivations: that there is one is
the end of the loop.  Its rounds may be answered in any way, so that the store behind it is
arbitrary, and may change from one round to the next.

## Main definitions

* `Check.after` — the check that is reached by a number of steps.
* `Check.collect` — the loop that collects a chain, with its guard.
* `Check.Tries` — the runs of the resolver's loop.
* `Check.IsWalk` — checks that follow each other to the last owner, each once.
* `Check.LoopEnds` — what becomes of the resolver's loop.
* `Check.inInstance` — a check of the same resource in another process instance.

## Main results

* `Check.owner_induction`, `Check.forall_mem_chain` — induction along the owners, and what every
  step keeps holds along the chain.
* `Check.isWalk_chain` — the chain is the walk to the last owner.
* `Check.collect_eq_append_chain` — the guard is never needed.
* `Check.loopEnds` — the resolver's loop ends, along the chain, whatever is answered.
* `Check.Tries.permits_eq` — the resolver answers what its loop does.
* `Check.chain_inInstance` — the process instance has no part in the steps.
* `Check.walk_ends_and_is_one` — **the walk ends, and both loops take the same one.**
-/

namespace TaskAccess

namespace Check

/-! ### Along the chain -/

/-- Induction along the owners, from a check that has no owner to ask back to what was asked
before it. -/
@[elab_as_elim]
theorem owner_induction {motive : Check → Prop}
    (last : ∀ c : Check, c.fallback? = none → motive c)
    (before : ∀ c next : Check, c.fallback? = some next → motive next → motive c) (c : Check) :
    motive c := by
  induction c using chain.induct with
  | case1 c ih =>
    cases hf : c.fallback? with
    | none => exact last c hf
    | some next => exact before c next hf (ih next hf)

/-- The check that is reached from a check by a number of steps to the owner. -/
def after : Nat → Check → Option Check
  | 0, c => some c
  | n + 1, c => c.fallback?.bind (after n)

theorem after_succ_of_fallback?_eq_none {c : Check} (h : c.fallback? = none) (n : Nat) :
    c.after (n + 1) = none := by
  rw [after, h]
  rfl

theorem after_succ_of_fallback?_eq_some {c next : Check} (h : c.fallback? = some next)
    (n : Nat) : c.after (n + 1) = next.after n := by
  rw [after, h]
  rfl

/-- The chain has the checks that are reached, in the order of the steps. -/
theorem getElem?_chain (n : Nat) (c : Check) : c.chain[n]? = c.after n := by
  induction n generalizing c with
  | zero =>
    rw [chain]
    rfl
  | succ n ih =>
    cases hf : c.fallback? with
    | none =>
      rw [chain_of_fallback?_eq_none hf, after_succ_of_fallback?_eq_none hf]
      rfl
    | some next =>
      rw [chain_of_fallback?_eq_some hf, after_succ_of_fallback?_eq_some hf,
        List.getElem?_cons_succ]
      exact ih next

/-- **What every step to an owner keeps holds along the chain.** -/
theorem forall_mem_chain {P : Check → Prop}
    (hstep : ∀ a b : Check, a.fallback? = some b → P a → P b) {c : Check} (hc : P c) :
    ∀ step ∈ c.chain, P step := by
  induction c using owner_induction with
  | last c hf =>
    intro step hmem
    rw [chain_of_fallback?_eq_none hf, List.mem_singleton] at hmem
    rwa [hmem]
  | before c next hf ih =>
    intro step hmem
    rw [chain_of_fallback?_eq_some hf] at hmem
    rcases List.mem_cons.1 hmem with rfl | hmem
    · exact hc
    · exact ih (hstep c next hf hc) step hmem

theorem rank_le_of_mem_chain {c step : Check} (h : step ∈ c.chain) :
    step.resourceType.rank ≤ c.resourceType.rank := by
  have hstep : ∀ a b : Check, a.fallback? = some b →
      a.resourceType.rank ≤ c.resourceType.rank → b.resourceType.rank ≤ c.resourceType.rank := by
    intro a b hab hle
    exact Nat.le_trans (Nat.le_of_lt (rank_fallback?_lt hab)) hle
  exact forall_mem_chain hstep (Nat.le_refl _) step h

theorem head?_chain (c : Check) : c.chain.head? = some c := by
  rw [chain]
  rfl

theorem chain_ne_nil (c : Check) : c.chain ≠ [] := by
  rw [chain]
  exact List.cons_ne_nil _ _

/-- No more steps can be taken than the rank of the type says. -/
theorem length_chain_le (c : Check) : c.chain.length ≤ c.resourceType.rank + 1 := by
  induction c using owner_induction with
  | last c hf =>
    rw [chain_of_fallback?_eq_none hf, List.length_singleton]
    omega
  | before c next hf ih =>
    have hlt := rank_fallback?_lt hf
    rw [chain_of_fallback?_eq_some hf, List.length_cons]
    omega

/-- **Asking owner after owner comes to an end.** -/
theorem after_rank_succ (c : Check) : c.after (c.resourceType.rank + 1) = none := by
  rw [← getElem?_chain]
  exact List.getElem?_eq_none c.length_chain_le

/-- The checks follow each other from a check on: every next one is what is asked of the owner,
nothing is asked after the last, and none is asked twice. -/
structure IsWalk (c : Check) (steps : List Check) : Prop where
  starts : steps.head? = some c
  follows : steps.IsChain fun a b => a.fallback? = some b
  ends : ∀ last ∈ steps.getLast?, last.fallback? = none
  once : steps.Nodup

theorem isChain_chain (c : Check) : c.chain.IsChain fun a b => a.fallback? = some b := by
  induction c using owner_induction with
  | last c hf =>
    rw [chain_of_fallback?_eq_none hf]
    exact .singleton c
  | before c next hf ih =>
    rw [chain_of_fallback?_eq_some hf, List.isChain_cons]
    refine ⟨?_, ih⟩
    intro second hsecond
    rw [head?_chain, Option.mem_some_iff] at hsecond
    rw [← hsecond, hf]

theorem fallback?_eq_none_of_mem_getLast?_chain {c last : Check}
    (h : last ∈ c.chain.getLast?) : last.fallback? = none := by
  induction c using owner_induction with
  | last c hf =>
    rw [chain_of_fallback?_eq_none hf, List.getLast?_singleton, Option.mem_some_iff] at h
    rwa [← h]
  | before c next hf ih =>
    rw [chain_of_fallback?_eq_some hf, List.getLast?_cons_of_ne_nil next.chain_ne_nil] at h
    exact ih h

/-- No check of the chain is met again further on: the rank has fallen there. -/
theorem nodup_chain (c : Check) : c.chain.Nodup := by
  induction c using owner_induction with
  | last c hf =>
    rw [chain_of_fallback?_eq_none hf, List.nodup_cons]
    exact ⟨List.not_mem_nil, List.nodup_nil⟩
  | before c next hf ih =>
    rw [chain_of_fallback?_eq_some hf, List.nodup_cons]
    refine ⟨?_, ih⟩
    intro hmem
    have hlt := rank_fallback?_lt hf
    have hle := rank_le_of_mem_chain hmem
    omega

/-- **The chain is the walk to the last owner.** -/
theorem isWalk_chain (c : Check) : c.IsWalk c.chain where
  starts := c.head?_chain
  follows := c.isChain_chain
  ends _ h := fallback?_eq_none_of_mem_getLast?_chain h
  once := c.nodup_chain

/-! ### The loop with a guard -/

/-- Collects the checks from `c` on behind those that were walked before it, and breaks off where
the next one is among them. -/
def collect (walked : List Check) (c : Check) : List Check :=
  match _h : c.fallback? with
  | none => walked ++ [c]
  | some next =>
    if next ∈ walked ++ [c] then walked ++ [c] else next.collect (walked ++ [c])
termination_by c.resourceType.rank
decreasing_by exact rank_fallback?_lt ‹_›

theorem collect_of_fallback?_eq_none {walked : List Check} {c : Check} (h : c.fallback? = none) :
    c.collect walked = walked ++ [c] := by
  rw [collect]
  split
  · rfl
  · next next hnext => rw [h] at hnext; cases hnext

theorem collect_of_fallback?_eq_some {walked : List Check} {c next : Check}
    (h : c.fallback? = some next) (hnew : next ∉ walked ++ [c]) :
    c.collect walked = next.collect (walked ++ [c]) := by
  rw [collect]
  split
  · next hnone => rw [h] at hnone; cases hnone
  · next next' hnext =>
    rw [h] at hnext
    cases hnext
    rw [if_neg hnew]

/-- **The guard is never needed.**  While all that was walked before has a greater rank, the next
check is new, and its rank is the smallest again. -/
theorem collect_eq_append_chain {walked : List Check} {c : Check}
    (h : ∀ w ∈ walked, c.resourceType.rank < w.resourceType.rank) :
    c.collect walked = walked ++ c.chain := by
  induction c using owner_induction generalizing walked with
  | last c hf => rw [collect_of_fallback?_eq_none hf, chain_of_fallback?_eq_none hf]
  | before c next hf ih =>
    have hlt := rank_fallback?_lt hf
    have hwalked : ∀ w ∈ walked ++ [c], next.resourceType.rank < w.resourceType.rank := by
      intro w hw
      rcases List.mem_append.1 hw with hw | hw
      · exact Nat.lt_trans hlt (h w hw)
      · rwa [List.mem_singleton.1 hw]
    have hnew : next ∉ walked ++ [c] := by
      intro hmem
      exact Nat.lt_irrefl _ (hwalked next hmem)
    rw [collect_of_fallback?_eq_some hf hnew, ih hwalked, chain_of_fallback?_eq_some hf,
      List.append_assoc, List.singleton_append]

theorem collect_nil (c : Check) : c.collect [] = c.chain := by
  apply collect_eq_append_chain
  intro w hw
  cases hw

/-! ### The loop without one -/

/-- A run of the resolver's loop from round `n` on: it is at the check `c`, tries `tried`, in this
order, and ends with an answer.  `ask k step` is what the store says in round `k`, if the loop is
at `step` then. -/
inductive Tries {ε : Type} (ask : Nat → Check → Except ε Bool) :
    Nat → Check → List Check → Except ε Bool → Prop
  /-- A check that is granted ends the loop, and one that the store fails on; and so does any
  check without an owner to ask. -/
  | stops {n : Nat} {c : Check} {answer : Except ε Bool} (hasked : ask n c = answer)
      (hlast : answer = .ok false → c.fallback? = none) : Tries ask n c [c] answer
  | goesOn {n : Nat} {c next : Check} {tried : List Check} {answer : Except ε Bool}
      (hasked : ask n c = .ok false) (hnext : c.fallback? = some next)
      (hrest : Tries ask (n + 1) next tried answer) : Tries ask n c (c :: tried) answer

section Rounds

variable {ε : Type} {ask : Nat → Check → Except ε Bool} {n : Nat} {c : Check}
  {tried : List Check} {answer : Except ε Bool}

/-- **The loop ends**, whatever is answered. -/
theorem exists_tries (ask : Nat → Check → Except ε Bool) (n : Nat) (c : Check) :
    ∃ tried answer, Tries ask n c tried answer := by
  induction c using owner_induction generalizing n with
  | last c hf => exact ⟨_, _, .stops rfl fun _ => hf⟩
  | before c next hf ih =>
    -- only a check that is denied leaves the end to the owner's check
    by_cases hasked : ask n c = .ok false
    · obtain ⟨tried, answer, hrest⟩ := ih (n + 1)
      exact ⟨_, _, .goesOn hasked hf hrest⟩
    · exact ⟨_, _, .stops rfl fun h => absurd h hasked⟩

/-- The loop has one run only. -/
theorem Tries.unique (h : Tries ask n c tried answer) :
    ∀ {tried' answer'}, Tries ask n c tried' answer' → tried' = tried ∧ answer' = answer := by
  induction h with
  | stops hasked hlast =>
    intro tried' answer' h'
    cases h' with
    | stops hasked' _ => exact ⟨rfl, hasked'.symm.trans hasked⟩
    | goesOn hasked' hnext' _ =>
      rw [hlast (hasked.symm.trans hasked')] at hnext'
      cases hnext'
  | goesOn hasked hnext _ ih =>
    intro tried' answer' h'
    cases h' with
    | stops hasked' hlast' =>
      rw [hlast' (hasked'.symm.trans hasked)] at hnext
      cases hnext
    | goesOn _ hnext' hrest' =>
      rw [hnext] at hnext'
      cases hnext'
      obtain ⟨rfl, rfl⟩ := ih hrest'
      exact ⟨rfl, rfl⟩

/-- The loop tries the checks of the chain, from the first on. -/
theorem Tries.tried_along_chain (h : Tries ask n c tried answer) : tried <+: c.chain := by
  induction h with
  | stops =>
    rw [chain]
    exact ⟨_, rfl⟩
  | goesOn _ hnext _ ih =>
    obtain ⟨rest, hrest⟩ := ih
    rw [chain_of_fallback?_eq_some hnext, ← hrest]
    exact ⟨rest, rfl⟩

/-- A loop that denies has tried the whole chain, and was denied in every round. -/
theorem Tries.of_denied (h : Tries ask n c tried answer) (hanswer : answer = .ok false) :
    tried = c.chain ∧ ∀ k step, c.after k = some step → ask (n + k) step = .ok false := by
  induction h with
  | @stops n c answer hasked hlast =>
    have hf : c.fallback? = none := hlast hanswer
    refine ⟨(chain_of_fallback?_eq_none hf).symm, ?_⟩
    intro k step hstep
    cases k with
    | zero =>
      cases hstep
      exact hasked.trans hanswer
    | succ k =>
      rw [after_succ_of_fallback?_eq_none hf] at hstep
      cases hstep
  | @goesOn n c next tried answer hasked hnext _ ih =>
    obtain ⟨htried, hdenied⟩ := ih hanswer
    refine ⟨by rw [htried, chain_of_fallback?_eq_some hnext], ?_⟩
    intro k step hstep
    cases k with
    | zero =>
      cases hstep
      exact hasked
    | succ k =>
      have hround : n + (k + 1) = n + 1 + k := by omega
      rw [after_succ_of_fallback?_eq_some hnext] at hstep
      rw [hround]
      exact hdenied k step hstep

/-- A loop that is denied in every round tries the whole chain, and denies. -/
theorem tries_chain (h : ∀ k step, c.after k = some step → ask (n + k) step = .ok false) :
    Tries ask n c c.chain (.ok false) := by
  induction c using owner_induction generalizing n with
  | last c hf =>
    rw [chain_of_fallback?_eq_none hf]
    exact .stops (h 0 c rfl) fun _ => hf
  | before c next hf ih =>
    rw [chain_of_fallback?_eq_some hf]
    refine .goesOn (h 0 c rfl) hf (ih ?_)
    intro k step hstep
    have hround : n + 1 + k = n + (k + 1) := by omega
    rw [← after_succ_of_fallback?_eq_some hf] at hstep
    rw [hround]
    exact h (k + 1) step hstep

/-- The resolver's loop from a check on, when its rounds are answered by `ask`. -/
structure LoopEnds (ask : Nat → Check → Except ε Bool) (c : Check) : Prop where
  /-- It ends, in one way. -/
  one_run : ∃! run : List Check × Except ε Bool, Tries ask 0 c run.1 run.2
  /-- It tries checks of the chain only, in their order, and leaves none out. -/
  along_chain : ∀ tried answer, Tries ask 0 c tried answer → tried <+: c.chain
  /-- It denies if every round does, and then it has tried the whole chain. -/
  denied_iff : ∀ tried, Tries ask 0 c tried (.ok false) ↔
    tried = c.chain ∧ ∀ k step, c.after k = some step → ask k step = .ok false

/-- **The resolver's loop ends, along the chain, whatever is answered.** -/
theorem loopEnds (ask : Nat → Check → Except ε Bool) (c : Check) : c.LoopEnds ask where
  one_run := by
    obtain ⟨tried, answer, h⟩ := exists_tries ask 0 c
    refine ⟨(tried, answer), h, ?_⟩
    intro run hrun
    obtain ⟨htried, hanswer⟩ := h.unique hrun
    exact Prod.ext htried hanswer
  along_chain _ _ h := h.tried_along_chain
  denied_iff tried := by
    constructor
    · intro h
      obtain ⟨htried, hdenied⟩ := h.of_denied rfl
      simp only [Nat.zero_add] at hdenied
      exact ⟨htried, hdenied⟩
    · rintro ⟨rfl, hdenied⟩
      apply tries_chain
      simpa only [Nat.zero_add] using hdenied

end Rounds

/-- **The resolver answers what its loop does** over the answers of the store. -/
theorem Tries.permits_eq {s : Store} {i : Identity} {n : Nat} {c : Check} {tried : List Check}
    {answer : Except StoreError Bool} (h : Tries (fun _ => s.holds i) n c tried answer) :
    s.permits i c = answer := by
  induction h with
  | @stops n c answer hasked hlast =>
    rcases answer with e | granted
    · rw [Store.permits, hasked]
    · cases granted with
      | true => rw [Store.permits, hasked]
      | false => exact Store.permits_of_fallback?_eq_none hasked (hlast rfl)
  | goesOn hasked hnext _ ih =>
    rw [Store.permits_of_fallback?_eq_some hasked hnext]
    exact ih

/-! ### The process instance -/

/-- The check of the same resource in another process instance, or in none. -/
def inInstance (id : Option String) (c : Check) : Check :=
  { c with lineage := { c.lineage with instanceId := id } }

/-- Instances are nobody's owners, so that the step to the owner is the same in all of them. -/
theorem fallback?_inInstance (id : Option String) (c : Check) :
    (c.inInstance id).fallback? = c.fallback?.map (inInstance id) := by
  cases ht : c.target with
  | any => simp only [fallback?, inInstance, ht, Option.map_none]
  | only x =>
    simp only [fallback?, inInstance, ht]
    cases he : TaskAccess.fallback? c.resourceType c.permission with
    | none => rfl
    | some entry =>
      -- the owner is a definition, and its key is not touched
      have htype := resourceType_of_fallback? he
      cases hp : entry.permission with
      | none => simp [hp]
      | some p =>
        cases hkey : c.lineage.definitionKey with
        | none => simp [hp, htype, Lineage.ownerId?, hkey]
        | some key => simp [hp, htype, Lineage.ownerId?, hkey, inInstance]

/-- **The process instance has no part in the steps**: in another one, the chain has the same
permissions, types and targets. -/
theorem chain_inInstance (id : Option String) (c : Check) :
    (c.inInstance id).chain = c.chain.map (inInstance id) := by
  induction c using owner_induction with
  | last c hf =>
    have hstep := fallback?_inInstance id c
    rw [hf, Option.map_none] at hstep
    rw [chain_of_fallback?_eq_none hf, chain_of_fallback?_eq_none hstep, List.map_singleton]
  | before c next hf ih =>
    have hstep := fallback?_inInstance id c
    rw [hf, Option.map_some] at hstep
    rw [chain_of_fallback?_eq_some hf, chain_of_fallback?_eq_some hstep, ih, List.map_cons]

/-! ### The walk -/

/-- An owner is asked for a permission that is defined for its type. -/
theorem appliesTo_of_fallback? {c next : Check} (h : c.fallback? = some next) :
    next.permission.appliesTo next.resourceType = true := by
  obtain ⟨_, entry, p, owner, -, hentry, hp, -, rfl⟩ :=
    (exists_fallback?_iff (P := (· = next))).1 ⟨next, h, rfl⟩
  exact TaskAccess.appliesTo_of_fallback? hentry hp

/-- **The walk to the owners ends, and both loops take the same one.**  Whatever a check asks for,
and whatever its resource belongs to:

* asking owner after owner comes to an end, with no more steps than the rank of the type says;
* the resolver's loop, which has no guard, ends in one way for every store, even one that
  changes between two rounds; it tries checks of the chain in their order, and exactly all of
  them if none is granted; and for a checked identity, the resolver answers what the loop comes
  to over the answers of the store;
* the loop that has a guard collects the chain, as it would without the guard, and the chain is
  the walk from the check to the last owner, on which no check occurs twice;
* if the permission is defined for the type of the check, so it is all along the chain; and
* in another process instance, the chain is the same but for the instance. -/
theorem walk_ends_and_is_one (c : Check) :
    c.after (c.resourceType.rank + 1) = none ∧
      ((∀ {ε : Type} (ask : Nat → Check → Except ε Bool), c.LoopEnds ask) ∧
        ∀ (s : Store) (caller : Caller) (i : Identity), caller.checkedIdentity? = some i →
          ∃ tried answer, Tries (fun _ => s.holds i) 0 c tried answer ∧
            s.isAuthorized caller c = answer.mapError .store) ∧
      (c.collect [] = c.chain ∧ c.IsWalk c.chain) ∧
      (c.permission.appliesTo c.resourceType = true →
        ∀ step ∈ c.chain, step.permission.appliesTo step.resourceType = true) ∧
      ∀ id, (c.inInstance id).chain = c.chain.map (inInstance id) := by
  refine ⟨c.after_rank_succ, ⟨fun ask => c.loopEnds ask, ?_⟩, ⟨c.collect_nil, c.isWalk_chain⟩, ?_,
    fun id => chain_inInstance id c⟩
  · intro s caller i hi
    obtain ⟨tried, answer, hrun⟩ := exists_tries (fun _ => s.holds i) 0 c
    refine ⟨tried, answer, hrun, ?_⟩
    rw [Store.isAuthorized, hi, ← hrun.permits_eq]
  · intro hdefined
    exact forall_mem_chain (fun a b hab _ => appliesTo_of_fallback? hab) hdefined

/-- To update a task whose definition has the id of the task. -/
def updateNamesake : Check := ⟨.update, .task, .only "invoice", ⟨some "invoice", some wildcard⟩⟩

/-- The task and the definition of its id are asked for one after the other, and nothing else. -/
theorem walk_ends_and_is_one_updateNamesake :
    updateNamesake.permission.appliesTo updateNamesake.resourceType = true ∧
      (Caller.authenticated ⟨"demo", ["sales"]⟩).checkedIdentity? = some ⟨"demo", ["sales"]⟩ ∧
      ∃ tried,
        Tries (fun _ => (Store.ofLedger revokedOnTask).holds ⟨"demo", ["sales"]⟩) 0
          updateNamesake tried (.ok false) ∧
        tried.map missing =
          [⟨"UPDATE", .task, some "invoice"⟩, ⟨"UPDATE_TASK", .processDefinition, some "invoice"⟩] ∧
        ∀ step ∈ tried, step.permission.appliesTo step.resourceType = true := by
  have hs : (Store.ofLedger revokedOnTask).Works := ⟨rfl, rfl⟩
  have happlies : updateNamesake.permission.appliesTo updateNamesake.resourceType = true := by
    decide
  have hchecked : (Caller.authenticated ⟨"demo", ["sales"]⟩).checkedIdentity? =
      some ⟨"demo", ["sales"]⟩ := rfl
  have hdenied : ¬ Permitted revokedOnTask ⟨"demo", ["sales"]⟩ updateNamesake := by
    decide +kernel
  obtain ⟨-, ⟨hloop, hanswers⟩, -, hdefined, -⟩ := walk_ends_and_is_one updateNamesake
  obtain ⟨tried, answer, hrun, hanswer⟩ := hanswers (.ofLedger revokedOnTask) _ _ hchecked
  have hfalse : answer = .ok false := by
    rw [← hrun.permits_eq, hs.permits_eq]
    exact congrArg Except.ok (decide_eq_false hdenied)
  rw [hfalse] at hrun
  have htried : tried = updateNamesake.chain := (((hloop _).denied_iff tried).1 hrun).1
  refine ⟨happlies, hchecked, tried, hrun, ?_, ?_⟩
  · rw [htried]
    decide +kernel
  · rw [htried]
    exact hdefined happlies

end Check

end TaskAccess
