import TaskAccess.Proofs.Denial
import TaskAccess.Proofs.Merging
import TaskAccess.Proofs.Writing

/-!
# What lifts a denial

A denial reports every question that was asked.  Each of them is a way out: if what it asks
for is granted to the user, then the requirement is met, unless a revocation is in the way.
And there is no other way out: a record that permits something, and after which the
requirement is met, is about what one of the questions asks for.

## Main definitions

* `Missing.permission?`, `Missing.target` — what a report is about.
* `Missing.grantTo` — the grant to a user of what is missing.

## Main results

* `holds_insert_of_appliesTo` — a permission that is granted is held, unless it is revoked.
* `meets_of_holds_insert` — what makes a permission held is about it.
* `Store.Works.require_eq_ok_iff` — a requirement is met by its expansion.
* `denial_lists_what_lifts_it` — **a denial lists exactly what would lift it.**
-/

namespace TaskAccess

/-! ### What is missing -/

namespace Missing

/-- The permission that is reported. -/
def permission? (m : Missing) : Option Permission := Permission.ofName? m.permissionName

/-- The resource that is reported, or every resource. -/
def target (m : Missing) : Target :=
  match m.resourceId with
  | some id => .only id
  | none => .any

/-- The grant to a user of what is missing, on every resource if no id is reported. -/
def grantTo (m : Missing) (id : Uuid) (userId : String) (p : Permission) : Record :=
  .ofHolder id .grant m.resourceType (m.resourceId.getD wildcard) (.user userId) p.mask

theorem permission?_missing (c : Check) : c.missing.permission? = some c.permission :=
  Permission.ofName?_name c.permission

theorem target_missing (c : Check) : c.missing.target = c.target := by
  cases h : c.target <;> simp [target, Check.missing, Target.id?, h]

/-- One resource is reported by its id. -/
theorem target_eq_only_iff {m : Missing} {id : String} :
    m.target = .only id ↔ m.resourceId = some id := by
  cases h : m.resourceId <;> simp [target, h]

theorem wellFormed_grantTo {m : Missing} {userId : String} (huser : userId ≠ "")
    (hid : m.resourceId ≠ some "") (id : Uuid) (p : Permission) :
    (m.grantTo id userId p).WellFormed := by
  refine ⟨?_, ?_, ?_, ?_, ?_⟩
  · simp [grantTo, Record.ofHolder, Holder.user, Holder.userId?, Holder.groupId?]
  · simp [grantTo, Record.ofHolder]
  · simpa [grantTo, Record.ofHolder, Holder.user, Holder.userId?] using huser
  · simp [grantTo, Record.ofHolder, Holder.user, Holder.groupId?]
  · cases hm : m.resourceId with
    | none => simp [grantTo, Record.ofHolder, hm, wildcard]
    | some x =>
      rw [hm] at hid
      simpa [grantTo, Record.ofHolder, hm] using hid

theorem appliesTo_grantTo (m : Missing) (id : Uuid) (i : Identity) (p : Permission) :
    (m.grantTo id i.userId p).AppliesTo i m.resourceType m.target := by
  refine ⟨rfl, ?_, .inl (.inl rfl)⟩
  cases hm : m.resourceId with
  | none => exact .inl (by simp [grantTo, Record.ofHolder, hm])
  | some x => exact .inr (by simp [target, grantTo, Record.ofHolder, hm])

end Missing

/-! ### Held after a record was merged -/

section Merged

variable {l : Ledger} {a : Record} {i : Identity} {c : Check}

/-- A permission that a merged record grants is held, unless some of it is revoked. -/
theorem holds_insert_of_appliesTo (happ : a.AppliesTo i c.resourceType c.target)
    (hkind : a.kind ≠ .revoke) (hperm : c.permission.mask ⊆ a.permissions)
    (hrevoke : ∀ v ∈ l, v.AppliesTo i c.resourceType c.target → v.kind = .revoke →
      ¬ v.permissions.Meets c.permission.mask) :
    Holds (l.insert a) i c := by
  rw [holds_iff_granted]
  intro bit hbit
  rw [Ledger.mem_granted_insert, Ledger.mem_revoked_insert_of_ne_revoke hkind]
  constructor
  · exact .inr ⟨⟨happ, hkind⟩, Mask.subset_iff.1 hperm bit hbit⟩
  · intro hrevoked
    obtain ⟨v, hv, ⟨hva, hvk⟩, hvb⟩ := Ledger.mem_revoked_effective.1 hrevoked
    exact hrevoke v hv hva hvk (Mask.meets_iff.2 ⟨bit, hvb, hbit⟩)

/-- If a permission is held because a record was merged, then the record is about it. -/
theorem meets_of_holds_insert (hkind : a.kind ≠ .revoke) (hafter : Holds (l.insert a) i c)
    (hbefore : ¬ Holds l i c) :
    a.AppliesTo i c.resourceType c.target ∧ a.permissions.Meets c.permission.mask := by
  obtain ⟨bit, hbit, hgranted, hmissing⟩ :=
    exists_mem_granted_of_holds hafter hbefore fun bit =>
      Ledger.mem_revoked_insert_of_ne_revoke hkind
  rcases Ledger.mem_granted_insert.1 hgranted with hgranted | ⟨⟨happ, -⟩, hnew⟩
  · exact absurd hgranted hmissing
  · exact ⟨happ, Mask.meets_iff.2 ⟨bit, hnew, hbit⟩⟩

end Merged

/-! ### Requirements and their expansions -/

/-- Only a checked identity can fail to meet a requirement, and only one of some checks. -/
theorem Requirement.exists_of_not_met {r : Requirement} {l : Ledger} {caller : Caller}
    (h : ¬ r.Met l caller) :
    r.alternatives ≠ [] ∧ ∃ i, caller.checkedIdentity? = some i ∧
      ¬ ∃ c ∈ r.alternatives, Permitted l i c := by
  unfold Met at h
  simpa only [Classical.not_imp, not_forall, Option.mem_def, exists_prop] using h

/-- A requirement is met if some member of its expansion is held on its own resource. -/
theorem Store.Works.require_eq_ok_iff {s : Store} (hs : s.Works) {caller : Caller}
    {i : Identity} (hi : caller.checkedIdentity? = some i) {r : Requirement}
    (hr : r.alternatives ≠ []) :
    s.require caller r = .ok () ↔ ∃ c ∈ r.expanded, Holds s.ledger i c := by
  rw [hs.require_eq, ← Requirement.exists_permitted_iff_exists_holds_expanded,
    ← Requirement.met_iff_of_checkedIdentity?_eq_some hi hr]
  by_cases hm : r.Met s.ledger caller
  · simp [hm]
  · simp [hm]

/-- A denial is made to a checked identity, and reports the requirement. -/
theorem Store.Works.reports_of_require_eq_denied {s : Store} (hs : s.Works) {caller : Caller}
    {r : Requirement} {d : Denial} (h : s.require caller r = .error (.denied d)) :
    r.alternatives ≠ [] ∧ ∃ i, caller.checkedIdentity? = some i ∧ d.Reports s i r := by
  rw [hs.require_eq] at h
  by_cases hm : r.Met s.ledger caller
  · rw [if_pos hm] at h
    cases h
  · rw [if_neg hm] at h
    cases h
    obtain ⟨hr, i, hi, hnone⟩ := Requirement.exists_of_not_met hm
    exact ⟨hr, i, hi, Requirement.reports_denial hs hi hr hnone⟩

/-! ### What lifts a denial -/

/-- **A denial lists exactly what would lift it.**  A denial is made to a checked identity.
Take any entry of its list, and suppose that the user and the resource have no empty id, and
that no revocation which applies to the identity there forbids the permission in part.  Then
the grant to the user of what is missing can be saved, and the requirement is met after
that.  Conversely, if the requirement is met after a grant or a global record was saved, then
some entry of the list is about a resource of the type of the record; the record is about
every resource, or about that of the entry, and it shares a bit with the permission that is
missing. -/
theorem denial_lists_what_lifts_it {s : Store} (hs : s.Works) {caller : Caller}
    {r : Requirement} {d : Denial} (hdenied : s.require caller r = .error (.denied d)) :
    ∃ i, caller.checkedIdentity? = some i ∧ d.userId = i.userId ∧
      (∀ m ∈ d.missing, ∃ p, m.permission? = some p ∧
        (d.userId ≠ "" → m.resourceId ≠ some "" →
          (∀ v ∈ s.ledger, v.AppliesTo i m.resourceType m.target → v.kind = .revoke →
            ¬ v.permissions.Meets p.mask) →
          ∀ id, ∃ stored s', Action.run (Store.save (m.grantTo id d.userId p)) s =
              (.ok stored, s') ∧
            s'.require caller r = .ok ())) ∧
      ∀ (a stored : Record) (s' : Store), a.WellFormed → a.kind ≠ .revoke →
        Action.run (Store.save a) s = (.ok stored, s') → s'.require caller r = .ok () →
          ∃ m ∈ d.missing, ∃ p, m.permission? = some p ∧ a.resourceType = m.resourceType ∧
            (a.resourceId = wildcard ∨ m.resourceId = some a.resourceId) ∧
            a.permissions.Meets p.mask := by
  obtain ⟨hr, i, hi, hreports⟩ := hs.reports_of_require_eq_denied hdenied
  refine ⟨i, hi, hreports.userId_eq, ?_, ?_⟩
  · intro m hm
    rw [hreports.missing_eq] at hm
    obtain ⟨c, hc, rfl⟩ := List.mem_map.1 hm
    refine ⟨c.permission, Missing.permission?_missing c, fun huser hid hrevoke id => ?_⟩
    have hsave := hs.run_save (Missing.wellFormed_grantTo huser hid id c.permission)
    refine ⟨_, _, hsave, ?_⟩
    rw [(hs.withLedger _).require_eq_ok_iff hi hr]
    -- the grant is about the question that was reported
    have happ := Missing.appliesTo_grantTo c.missing id i c.permission
    rw [Missing.target_missing] at happ hrevoke
    rw [hreports.userId_eq]
    exact ⟨c, hc, holds_insert_of_appliesTo happ (by simp [Missing.grantTo, Record.ofHolder])
      (Mask.subset_refl _) hrevoke⟩
  · intro a stored s' hwell hkind hsave hmet
    rw [hs.run_save hwell] at hsave
    cases hsave
    rw [(hs.withLedger _).require_eq_ok_iff hi hr] at hmet
    obtain ⟨c, hc, hafter⟩ := hmet
    have hbefore : ¬ Holds s.ledger i c := by
      have h := hreports.not_held c hc
      rw [hs.holds_eq] at h
      exact of_decide_eq_false (Except.ok.inj h)
    obtain ⟨happ, hmeets⟩ := meets_of_holds_insert hkind hafter hbefore
    refine ⟨c.missing, hreports.missing_eq ▸ List.mem_map_of_mem hc, c.permission,
      Missing.permission?_missing c, happ.resource_type, ?_, hmeets⟩
    rcases happ.resource_id with hw | honly
    · exact .inl hw
    · rw [← Missing.target_missing, Missing.target_eq_only_iff] at honly
      exact .inr honly

/-- Nothing on the task can be granted to somebody to whom it is forbidden, but assigning the
tasks of its definition can, and that is listed. -/
theorem denial_lists_what_lifts_it_updateOrAssign :
    (Store.ofLedger revokedOnTask).Works ∧
      ∃ d, (Store.ofLedger revokedOnTask).require (.authenticated ⟨"demo", ["sales"]⟩)
          updateOrAssign = .error (.denied d) ∧
        (⟨"TASK_ASSIGN", .processDefinition, some "invoice"⟩ : Missing) ∈ d.missing ∧
        ∃ stored s', Action.run (Store.save (.ofHolder ⟨4⟩ .grant .processDefinition
              "invoice" (.user "demo") Permission.taskAssign.mask)) (.ofLedger revokedOnTask) =
            (.ok stored, s') ∧
          s'.require (.authenticated ⟨"demo", ["sales"]⟩) updateOrAssign = .ok () := by
  have hs : (Store.ofLedger revokedOnTask).Works := ⟨rfl, rfl⟩
  have hnot : ¬ updateOrAssign.Met (Store.ofLedger revokedOnTask).ledger
      (.authenticated ⟨"demo", ["sales"]⟩) := by
    decide +kernel
  have hdenied := hs.require_eq (.authenticated ⟨"demo", ["sales"]⟩) updateOrAssign
  rw [if_neg hnot] at hdenied
  have hmem : (⟨"TASK_ASSIGN", .processDefinition, some "invoice"⟩ : Missing) ∈
      (updateOrAssign.denial (.authenticated ⟨"demo", ["sales"]⟩)).missing := by
    decide +kernel
  obtain ⟨i, hi, -, hlifts, -⟩ := denial_lists_what_lifts_it hs hdenied
  cases hi
  obtain ⟨p, hp, hgrant⟩ := hlifts _ hmem
  cases hp
  refine ⟨hs, _, hdenied, hmem, hgrant (by decide) (by decide) ?_ ⟨4⟩⟩
  -- the revocation is about the task
  simp only [← selects_query_iff]
  decide +kernel

end TaskAccess
