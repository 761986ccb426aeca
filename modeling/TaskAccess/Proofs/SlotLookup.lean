import TaskAccess.Proofs.OneGrant
import TaskAccess.Proofs.OnlyWellFormed

/-!
# Looking up a slot

Records are looked up with queries, and merged by slot.  A query lists users and groups, either of
which may select a record, while a slot has a user and a group, one of which is missing; so the
query for the one holder of a slot is about that slot only if the records are well-formed.  In a
store that has one record for each slot, it selects that record then, or nothing.

## Main definitions

* `Query.Matches` — a record meets every restriction of a query.
* `Record.slotQuery` — the query for the slot of a record.

## Main results

* `Query.selects_iff_matches` — a query selects the records that match it.
* `Record.matches_slotQuery_iff` — **among well-formed records, the query for a slot is about that
  slot.**
* `Store.Works.findSingle_eq_ok_iff`, `Store.Works.findSingle_eq_error_iff` — what looking up a
  single record comes to.
* `Store.slot_is_found` — **a slot is looked up without ambiguity.**
-/

namespace TaskAccess

/-! ### Records that match -/

/-- The record meets every restriction of the query.  What is left out restricts nothing, and the
users and the groups are left out together. -/
structure Query.Matches (q : Query) (r : Record) : Prop where
  resource_type : ∀ t, q.resourceType = some t → r.resourceType = t
  kind : ∀ k, q.kind = some k → r.kind = k
  resource_id : q.resourceIds = [] ∨ r.resourceId ∈ q.resourceIds
  holder : (q.userIds = [] ∧ q.groupIds = []) ∨
    (∃ u ∈ q.userIds, r.userId = some u) ∨ ∃ g ∈ q.groupIds, r.groupId = some g

namespace Query

variable {q : Query} {r : Record}

/-- What is left out restricts nothing. -/
private theorem all_beq_iff {α : Type} [DecidableEq α] {wanted : Option α} {x : α} :
    wanted.all (· == x) = true ↔ ∀ y, wanted = some y → x = y := by
  cases wanted with
  | none => simp
  | some y =>
    simp only [Option.all_some, beq_iff_eq, Option.some.injEq, forall_eq']
    exact eq_comm

/-- A query selects the records that match it. -/
theorem selects_iff_matches : q.selects r = true ↔ q.Matches r := by
  have hid : (q.resourceIds.isEmpty || q.resourceIds.contains r.resourceId) = true ↔
      q.resourceIds = [] ∨ r.resourceId ∈ q.resourceIds := by
    simp
  have hholder : q.selectsHolder r = true ↔ (q.userIds = [] ∧ q.groupIds = []) ∨
      (∃ u ∈ q.userIds, r.userId = some u) ∨ ∃ g ∈ q.groupIds, r.groupId = some g := by
    simp only [selectsHolder, Bool.or_eq_true, Bool.and_eq_true, List.isEmpty_iff,
      holds_eq_true_iff, or_assoc]
  rw [selects, Bool.and_eq_true, Bool.and_eq_true, Bool.and_eq_true, all_beq_iff, all_beq_iff, hid,
    hholder]
  constructor
  · rintro ⟨⟨⟨ht, hk⟩, hr⟩, hh⟩
    exact ⟨ht, hk, hr, hh⟩
  · rintro ⟨ht, hk, hr, hh⟩
    exact ⟨⟨⟨ht, hk⟩, hr⟩, hh⟩

instance (q : Query) (r : Record) : Decidable (q.Matches r) :=
  decidable_of_iff _ selects_iff_matches

theorem selects_eq (q : Query) : q.selects = fun r => decide (q.Matches r) := by
  funext r
  rw [Bool.eq_iff_iff, decide_eq_true_eq]
  exact selects_iff_matches

end Query

/-- The query for the slot of a record: for its kind, its resource, and its one user or group. -/
def Record.slotQuery (r : Record) : Query where
  resourceType := some r.resourceType
  kind := some r.kind
  resourceIds := [r.resourceId]
  userIds := r.userId.toList
  groupIds := r.groupId.toList

/-- A holder is selected by the query for it, and no other one is. -/
theorem Holder.listed_iff {h h' : Holder} :
    ((h.userId?.toList = [] ∧ h.groupId?.toList = []) ∨
        (∃ u ∈ h.userId?.toList, h'.userId? = some u) ∨
          ∃ g ∈ h.groupId?.toList, h'.groupId? = some g) ↔
      h'.userId? = h.userId? ∧ h'.groupId? = h.groupId? := by
  -- a user and a group differ even if they have the same id
  obtain ⟨kind, id⟩ := h
  obtain ⟨kind', id'⟩ := h'
  cases kind <;> cases kind' <;> simp [userId?, groupId?]

/-- **Among well-formed records, the query for a slot is about that slot.** -/
theorem Record.matches_slotQuery_iff {a r : Record} (ha : a.WellFormed) (hr : r.WellFormed) :
    r.slotQuery.Matches a ↔ a.slot = r.slot := by
  obtain ⟨h, -, huser, hgroup, -⟩ := wellFormed_iff_exists_holder.1 hr
  obtain ⟨h', -, huser', hgroup', -⟩ := wellFormed_iff_exists_holder.1 ha
  have hlisted := @Holder.listed_iff h h'
  rw [← huser, ← hgroup, ← huser', ← hgroup'] at hlisted
  rw [slot, slot, Slot.mk.injEq]
  constructor
  · rintro ⟨ht, hk, hid, hholder⟩
    exact ⟨hk _ rfl, ht _ rfl, by simpa [slotQuery] using hid, hlisted.1 hholder⟩
  · rintro ⟨hk, ht, hid, hholder⟩
    refine ⟨?_, ?_, .inr (by simp [slotQuery, hid]), hlisted.2 hholder⟩
    · rintro t ⟨⟩
      exact ht
    · rintro k ⟨⟩
      exact hk

/-! ### What is looked up -/

/-- In a ledger with one record for each slot, the records of a slot are the one that occupies
it, or none. -/
theorem Ledger.OnePerSlot.select_eq_toList {l : Ledger} (h : l.OnePerSlot) (slot : Slot) :
    (l.select fun held => held == slot) = (l.at? slot).toList := by
  cases hl : l.at? slot with
  | none =>
    refine List.filter_eq_nil_iff.2 fun a ha hslot => ?_
    exact at?_eq_none_iff.1 hl (eq_of_beq hslot ▸ List.mem_map_of_mem ha)
  | some a =>
    obtain rfl : a.slot = slot := by simpa using List.find?_some hl
    exact h.select_eq (List.mem_of_find?_eq_some hl)

namespace Store.Works

variable {s : Store} {q : Query}

/-- A lookup answers the one record that is selected, or that there is none. -/
theorem findSingle_eq_ok_iff (hs : s.Works) {x : Option Record} :
    s.findSingle q = .ok x ↔ s.ledger.filter q.selects = x.toList := by
  rw [findSingle, hs.find_eq]
  match s.ledger.filter q.selects with
  | [] => cases x <;> simp [bind, Except.bind, pure, Except.pure]
  | [r] => cases x <;> simp [bind, Except.bind, pure, Except.pure]
  | r :: r' :: rest =>
    cases x <;> simp [bind, Except.bind, throw, throwThe, MonadExceptOf.throw]

/-- It fails with their number if several are selected, and on nothing else. -/
theorem findSingle_eq_error_iff (hs : s.Works) {e : StoreError} :
    s.findSingle q = .error e ↔ 2 ≤ (s.ledger.filter q.selects).length ∧
      e = .severalRecords (s.ledger.filter q.selects).length := by
  rw [findSingle, hs.find_eq]
  match s.ledger.filter q.selects with
  | [] => simp [bind, Except.bind, pure, Except.pure]
  | [r] => simp [bind, Except.bind, pure, Except.pure]
  | r :: r' :: rest =>
    simp [bind, Except.bind, throw, throwThe, MonadExceptOf.throw, eq_comm (a := e)]

/-- The query for a slot looks up the record that occupies it. -/
theorem findSingle_slotQuery (hs : s.Works) (hwell : s.ledger.AllWellFormed)
    (hone : s.ledger.OnePerSlot) {r : Record} (hr : r.WellFormed) :
    s.findSingle r.slotQuery = .ok (s.ledger.at? r.slot) := by
  rw [hs.findSingle_eq_ok_iff, ← hone.select_eq_toList, Ledger.select]
  refine List.filter_congr fun a ha => ?_
  rw [Bool.eq_iff_iff, beq_iff_eq, Query.selects_iff_matches]
  exact Record.matches_slotQuery_iff (hwell a ha) hr

end Store.Works

namespace Ledger

variable {l : Ledger} {slot : Slot}

/-- With one record for each slot, it is the record of a slot that occupies it. -/
theorem OnePerSlot.at?_eq_some_iff (h : l.OnePerSlot) {a : Record} :
    l.at? slot = some a ↔ a ∈ l ∧ a.slot = slot := by
  rw [← Option.mem_toList, ← h.select_eq_toList, select, List.mem_filter, beq_iff_eq]

theorem at?_eq_none_iff_forall_ne : l.at? slot = none ↔ ∀ a ∈ l, a.slot ≠ slot := by
  rw [at?_eq_none_iff, List.mem_map]
  push Not
  rfl

end Ledger

namespace Store

variable {s : Store}

/-- The query for the slot of a record that was just saved looks up what was answered. -/
theorem Works.exists_save_findSingle (hs : s.Works) (hwell : s.ledger.AllWellFormed)
    (hone : s.ledger.OnePerSlot) {r : Record} (hr : r.WellFormed) :
    ∃ stored s', Action.run (save r) s = (.ok stored, s') ∧
      s'.findSingle r.slotQuery = .ok (some stored) := by
  refine ⟨s.ledger.inserted r, _, hs.run_save hr, ?_⟩
  rw [(hs.withLedger _).findSingle_slotQuery (hwell.insert hr) (hone.insert r) hr,
    Ledger.at?_insert_self]

/-- **A slot is looked up without ambiguity.**  Where every record is well-formed and no two share
a slot, looking up the slot of a well-formed record does not fail: it answers that there is none
if the slot is empty, and else the record that occupies it.  Once the record is saved, it answers
what the saving answered.  Whatever the records are, and whatever the query, the records that
match it are found, in their order; and looking up a single one fails if they are several, with
their number, and on nothing else. -/
theorem slot_is_found (hs : s.Works) :
    (s.ledger.AllWellFormed → s.ledger.OnePerSlot → ∀ r : Record, r.WellFormed →
      (∃ x, s.findSingle r.slotQuery = .ok x ∧
        (x = none ↔ ∀ a ∈ s.ledger, a.slot ≠ r.slot) ∧
          ∀ a, x = some a ↔ a ∈ s.ledger ∧ a.slot = r.slot) ∧
        ∃ stored s', Action.run (save r) s = (.ok stored, s') ∧
          s'.findSingle r.slotQuery = .ok (some stored)) ∧
      ∀ q : Query, s.find q = .ok (s.ledger.filter fun r => q.Matches r) ∧
        ∀ e, s.findSingle q = .error e ↔
          2 ≤ (s.ledger.filter fun r => q.Matches r).length ∧
            e = .severalRecords (s.ledger.filter fun r => q.Matches r).length := by
  constructor
  · intro hwell hone r hr
    refine ⟨?_, hs.exists_save_findSingle hwell hone hr⟩
    refine ⟨_, hs.findSingle_slotQuery hwell hone hr, Ledger.at?_eq_none_iff_forall_ne, ?_⟩
    intro a
    exact hone.at?_eq_some_iff
  · intro q
    rw [← q.selects_eq]
    refine ⟨hs.find_eq q, ?_⟩
    intro e
    exact hs.findSingle_eq_error_iff

/-- Reading a task, granted to the user or to the group of the name "sales". -/
def grantToSales (kind : HolderKind) : Record :=
  .ofHolder ⟨1⟩ .grant .task "t1" ⟨kind, "sales"⟩ Permission.read.mask

/-- A user and a group have one name.  The slot of either is looked up, and that of what would be
revoked from the group is empty; but the task has both records. -/
theorem slot_is_found_grantToSales :
    (ofLedger [grantToSales .user, grantToSales .group]).Works ∧
      Ledger.AllWellFormed [grantToSales .user, grantToSales .group] ∧
      Ledger.OnePerSlot [grantToSales .user, grantToSales .group] ∧
      (∀ kind, (ofLedger [grantToSales .user, grantToSales .group]).findSingle
        (grantToSales kind).slotQuery = .ok (some (grantToSales kind))) ∧
      (ofLedger [grantToSales .user, grantToSales .group]).findSingle
        (Record.slotQuery { grantToSales .group with kind := .revoke }) = .ok none ∧
      (ofLedger [grantToSales .user, grantToSales .group]).findSingle
        { resourceType := some .task, resourceIds := ["t1"] } = .error (.severalRecords 2) := by
  have hs : (ofLedger [grantToSales .user, grantToSales .group]).Works := ⟨rfl, rfl⟩
  have hwell : Ledger.AllWellFormed [grantToSales .user, grantToSales .group] := by
    rw [Ledger.AllWellFormed]
    decide
  have hone : Ledger.OnePerSlot [grantToSales .user, grantToSales .group] := by decide
  obtain ⟨hslot, hquery⟩ := slot_is_found hs
  refine ⟨hs, hwell, hone, ?_, ?_, ?_⟩
  · intro kind
    have hmem : grantToSales kind ∈ [grantToSales .user, grantToSales .group] := by
      cases kind <;> decide
    obtain ⟨⟨x, hx, -, hfound⟩, -⟩ := hslot hwell hone _ (hwell _ hmem)
    rw [hx, (hfound _).2 ⟨hmem, rfl⟩]
  · obtain ⟨⟨x, hx, hempty, -⟩, -⟩ :=
      hslot hwell hone { grantToSales .group with kind := .revoke } (by decide)
    rw [hx, hempty.2 (by decide)]
  · exact ((hquery _).2 _).2 (by decide)

end Store

end TaskAccess
