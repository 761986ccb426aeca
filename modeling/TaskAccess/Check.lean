import TaskAccess.Permission.Fallback

/-!
# Permission checks

A check asks for one permission on one resource, or on every resource of a type.
A check on one resource that fails is asked again of the owner of the resource,
under the name that the fallback table gives the permission there.

## Main definitions

* `Target` — one resource, or every resource of a type.
* `Check` — a permission, a resource and its lineage.
* `Check.fallback?` — the check that is asked next.
* `Check.chain` — the check and all that are asked after it.
* `Requirement` — checks of which one is enough, and all that they ask.
* `Missing`, `Check.missing` — what a check asks for, as it is reported.

## Main results

* `Check.rank_fallback?_lt` — every next check is about a type of smaller rank.
-/

namespace TaskAccess

/-- What a check is about. -/
inductive Target
  /-- Every resource of the type. -/
  | any
  /-- The resource with an id. -/
  | only (id : String)
  deriving DecidableEq, Repr, Inhabited

namespace Target

/-- The target that an id names: the wildcard names every resource. -/
def ofId (id : String) : Target := if isWildcard id then any else only id

/-- The id that names a target. -/
def text : Target → String
  | any => wildcard
  | only id => id

/-- The id of the resource, if there is only one. -/
def id? : Target → Option String
  | any => none
  | only id => some id

/-- The target is every resource. -/
def isAny : Target → Bool
  | any => true
  | only _ => false

@[simp] theorem ofId_wildcard : ofId wildcard = any := by decide

@[simp] theorem text_ofId (id : String) : (ofId id).text = id := by
  by_cases h : id = wildcard <;> simp [ofId, isWildcard, text, h]

end Target

/-- A permission that was asked for, as it is reported. -/
structure Missing where
  /-- The name of the permission. -/
  permissionName : String
  /-- The type of the resource. -/
  resourceType : ResourceType
  /-- The id of the resource; missing if every resource was asked for. -/
  resourceId : Option String
  deriving DecidableEq, Repr

/-- The report of a permission that was asked for. -/
def Missing.message (m : Missing) : String :=
  match m.resourceId with
  | some id =>
    "'" ++ m.permissionName ++ "' permission on resource '" ++ id ++ "' of type '" ++
      m.resourceType.name ++ "'"
  | none =>
    "'" ++ m.permissionName ++ "' permission on resource '" ++ m.resourceType.name ++ "'"

/-- A question whether a permission is held. -/
structure Check where
  permission : Permission
  resourceType : ResourceType
  target : Target
  /-- What the resource belongs to. -/
  lineage : Lineage := {}
  deriving DecidableEq, Repr, Inhabited

namespace Check

/-- The check on every resource of a type. -/
def onAny (p : Permission) (t : ResourceType) : Check := ⟨p, t, .any, {}⟩

/-- The check of the owner that follows a check on one resource. -/
def fallback? (c : Check) : Option Check :=
  match c.target with
  | .any => none
  | .only _ => do
    let entry ← TaskAccess.fallback? c.resourceType c.permission
    let permission ← entry.permission
    let owner ← c.lineage.ownerId? entry.resourceType
    return ⟨permission, entry.resourceType, .ofId owner, c.lineage⟩

/-- Every next check is about a type of smaller rank. -/
theorem rank_fallback?_lt {c next : Check} (h : c.fallback? = some next) :
    next.resourceType.rank < c.resourceType.rank := by
  simp only [fallback?] at h
  split at h
  · cases h
  · simp only [Option.bind_eq_bind, Option.bind_eq_some_iff, Option.pure_def,
      Option.some.injEq] at h
    obtain ⟨entry, he, permission, _, owner, _, rfl⟩ := h
    exact TaskAccess.rank_fallback?_lt he

/-- The check and all that are asked after it. -/
def chain (c : Check) : List Check :=
  c ::
    match _h : c.fallback? with
    | none => []
    | some next => next.chain
termination_by c.resourceType.rank
decreasing_by exact rank_fallback?_lt ‹_›

/-- The checks ask for the same permission on the same resource. -/
def sameQuestion (a b : Check) : Bool :=
  a.permission == b.permission && a.resourceType == b.resourceType && a.target == b.target

/-- What a check asks for, as it is reported. -/
def missing (c : Check) : Missing := ⟨c.permission.name, c.resourceType, c.target.id?⟩

/-- The text of a check. -/
def message (c : Check) : String :=
  c.permission.name ++ " on " ++ c.resourceType.name ++ ":" ++ c.target.text

end Check

/-- Checks of which one is enough.  With no check nothing is required. -/
structure Requirement where
  /-- The accepted checks, in the order in which they are tried. -/
  alternatives : List Check
  deriving DecidableEq, Repr, Inhabited

namespace Requirement

/-- Requires nothing. -/
def none : Requirement := ⟨[]⟩

/-- Nothing is required. -/
def isEmpty (r : Requirement) : Bool := r.alternatives.isEmpty

/-- Adds a check unless the same question is there already. -/
def addQuestion (asked : List Check) (c : Check) : List Check :=
  if asked.any fun a => a.sameQuestion c then asked else asked ++ [c]

/-- Every question that the checks ask, once: the alternatives first, then what is
asked of owners. -/
def expanded (r : Requirement) : List Check :=
  (r.alternatives ++ r.alternatives.flatMap fun c => c.chain.tail).foldl addQuestion []

end Requirement

end TaskAccess
