import Mathlib.Data.List.Nodup
import TaskAccess.Proofs.OnePerId
import TaskAccess.Proofs.Session

/-!
# New identifiers

The gate is the only one to hand out identifiers with serial numbers, and it hands them out
in turn.  A store of records that a clock has named has no such identifier to begin with.  So
the identifier that comes next is none in use, and granting links never gives two records one
id, as long as there are serial numbers left.

## Main definitions

* `Store.IdsApart` — no two records share an id, and the serial numbers in use were handed
  out.

## Main results

* `Store.IdsApart.numbered_notMem` — the identifier that comes next is none in use.
* `Store.IdsApart.withGrants`, `Store.IdsApart.without` — granting links and dropping records
  keep the ids apart.
* `TaskGate.minted_le_run` — no identifier is handed out twice.
* `TaskGate.idsApart_run` — **a session keeps the ids apart**, as long as there are serial
  numbers left.
* `TaskGate.run_delete_of_run` — what has been granted in a session can be dropped by its id,
  and nothing else goes with it.
-/

namespace TaskAccess

namespace Store

/-- No two records share an id, and every serial number in use was handed out. -/
structure IdsApart (s : Store) : Prop where
  one_per_id : s.ledger.OnePerId
  handed_out : ∀ id ∈ s.ledger.map Record.id, ∀ n, id.serial? = some n → n < s.minted

variable {s : Store}

/-- The ids that a clock has made are told from those with serial numbers. -/
theorem IdsApart.of_forall_serial?_eq_none (hone : s.ledger.OnePerId)
    (h : ∀ id ∈ s.ledger.map Record.id, id.serial? = none) : s.IdsApart where
  one_per_id := hone
  handed_out := by
    intro id hid n hn
    rw [h id hid] at hn
    cases hn

namespace IdsApart

/-- The identifier that comes next is none in use. -/
theorem numbered_notMem (h : s.IdsApart) (hlast : s.minted < Uuid.serialCount) :
    .numbered s.minted ∉ s.ledger.map Record.id := by
  intro hmem
  have hlt := h.handed_out _ hmem s.minted (Uuid.serial?_numbered hlast)
  omega

theorem withMinted (h : s.IdsApart) {n : Nat} (hn : s.minted ≤ n) :
    IdsApart { s with minted := n } where
  one_per_id := h.one_per_id
  handed_out := by
    intro id hid m hm
    have hlt := h.handed_out id hid m hm
    show m < n
    omega

/-- A link that is granted brings in the identifier that comes next, or none. -/
theorem withGrant (h : s.IdsApart) (hlast : s.minted < Uuid.serialCount) (g : DefaultGrants)
    (p : Task × Link) : (s.withGrant g p).IdsApart := by
  have hids : (s.withGrant g p).ledger.map Record.id = s.ledger.map Record.id ∨
      (s.withGrant g p).ledger.map Record.id =
        s.ledger.map Record.id ++ [.numbered s.minted] := by
    unfold Store.withGrant
    rw [Ledger.map_id_insert]
    split
    · exact .inl rfl
    · exact .inr rfl
  constructor
  · unfold Ledger.OnePerId
    rcases hids with hids | hids
    · rw [hids]
      exact h.one_per_id
    · rw [hids, List.nodup_append_comm, List.singleton_append, List.nodup_cons]
      exact ⟨h.numbered_notMem hlast, h.one_per_id⟩
  · intro id hid n hn
    show n < s.minted + 1
    rcases hids with hids | hids
    · rw [hids] at hid
      have hlt := h.handed_out id hid n hn
      omega
    · rw [hids, List.mem_append, List.mem_singleton] at hid
      rcases hid with hid | rfl
      · have hlt := h.handed_out id hid n hn
        omega
      · rw [Uuid.serial?_numbered hlast] at hn
        cases hn
        omega

end IdsApart

theorem minted_withGrants (g : DefaultGrants) (links : List (Task × Link)) :
    (s.withGrants g links).minted = s.minted + links.length := by
  induction links generalizing s with
  | nil => rfl
  | cons p rest ih =>
    rw [withGrants_cons, ih, List.length_cons]
    show s.minted + 1 + rest.length = _
    omega

namespace IdsApart

/-- Granting links keeps the ids apart, as long as there are serial numbers for them. -/
theorem withGrants (h : s.IdsApart) (g : DefaultGrants) {links : List (Task × Link)}
    (hlast : s.minted + links.length ≤ Uuid.serialCount) : (s.withGrants g links).IdsApart := by
  induction links generalizing s with
  | nil => exact h
  | cons p rest ih =>
    rw [List.length_cons] at hlast
    rw [withGrants_cons]
    refine ih (h.withGrant ?_ g p) ?_
    · omega
    · show s.minted + 1 + rest.length ≤ _
      omega

/-- Dropping records brings in no id. -/
theorem without (h : s.IdsApart) (ids : List String) : (s.without ids).IdsApart where
  one_per_id := h.one_per_id.filter _
  handed_out := by
    intro id hid
    apply h.handed_out id
    exact (List.filter_sublist.map Record.id).subset hid

end IdsApart

end Store

namespace TaskGate

variable {g : TaskGate} {s : Store}

namespace Call

variable {call : Call} {p : Except AccessError Answer × Store}

/-- Identifiers that were handed out stay so. -/
theorem Effect.minted_le (h : call.Effect g s p) : s.minted ≤ p.2.minted := by
  cases h with
  | failed e n hn => exact hn
  | succeeded x _ =>
    show s.minted ≤ (s.withGrants g.grants call.linked).minted
    rw [Store.minted_withGrants]
    omega

/-- Every call keeps the ids apart, as long as there are serial numbers for its grants. -/
theorem Effect.idsApart (h : call.Effect g s p) (hs : s.IdsApart)
    (hlast : p.2.minted ≤ Uuid.serialCount) : p.2.IdsApart := by
  cases h with
  | failed e n hn => exact hs.withMinted hn
  | succeeded x _ =>
    have hlinked : (s.withGrants g.grants call.linked).minted ≤ Uuid.serialCount := hlast
    rw [Store.minted_withGrants] at hlinked
    exact (hs.withGrants g.grants hlinked).without call.ended

end Call

/-! ### Sessions -/

/-- No identifier is handed out twice. -/
theorem minted_le_run (hs : s.Works) (steps : List Step) : s.minted ≤ (g.run steps s).minted := by
  refine run_induction (P := fun t => s.minted ≤ t.minted) hs (Nat.le_refl _) ?_ steps
  intro t call p _ hle heffect
  exact hle.trans heffect.minted_le

/-- **A session keeps the ids apart**, as long as there are serial numbers left: no two records
share an id then, and the identifier that comes next is none in use. -/
theorem idsApart_run (hs : s.Works) (h : s.IdsApart) (steps : List Step)
    (hlast : (g.run steps s).minted ≤ Uuid.serialCount) : (g.run steps s).IdsApart := by
  -- along the session; what is handed out on the way is at most what is handed out in the end
  induction steps generalizing s with
  | nil => exact h
  | cons step rest ih =>
    rw [run_cons] at hlast ⊢
    have heffect := step.call.effect_perform (g := g) hs step.caller
    have hworks := heffect.works hs
    have hle := minted_le_run (g := g) hworks rest
    exact ih hworks (heffect.idsApart h (hle.trans hlast)) hlast

/-- If a clock has named the records of a store, then each of the records that it holds after a
session can be dropped by its id, and nothing else goes with it. -/
theorem run_delete_of_run (hs : s.Works) (hone : s.ledger.OnePerId)
    (hclock : ∀ id ∈ s.ledger.map Record.id, id.serial? = none) (steps : List Step)
    (hlast : (g.run steps s).minted ≤ Uuid.serialCount) {pre post : Ledger} {a : Record}
    (hl : (g.run steps s).ledger = pre ++ a :: post) :
    Action.run (Store.delete a.id) (g.run steps s) =
      (.ok true, { g.run steps s with ledger := pre ++ post }) := by
  have hapart := idsApart_run hs (.of_forall_serial?_eq_none hone hclock) steps hlast
  exact (works_run hs steps).run_delete_of_onePerId hl hapart.one_per_id

end TaskGate

end TaskAccess
