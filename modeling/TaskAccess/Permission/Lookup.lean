import TaskAccess.Fault
import TaskAccess.Permission
import TaskAccess.Text.Blank

/-!
# Configured permission names

A permission is configured by name.  Blanks around the name and the case of ASCII
letters do not matter; the permission must be defined for the resource type that
it is configured for.

## Main definitions

* `Permission.IsNamed` — a text names a permission.
* `Permission.forResource` — the permission that a text names for a resource type.
-/

namespace TaskAccess.Permission

/-- The text in lower case, as far as it is ASCII. -/
def foldCase (s : List Char) : List Char := s.map Char.toLower

/-- The text names the permission, up to blanks around it and the case of ASCII letters. -/
def IsNamed (p : Permission) (text : String) : Prop :=
  foldCase p.name.toList = foldCase (Text.trim text.toList)

instance (p : Permission) (text : String) : Decidable (p.IsNamed text) :=
  inferInstanceAs (Decidable (_ = _))

/-- The permission that a text names for a resource type. -/
def forResource (text : String) (t : ResourceType) : Except Fault Permission :=
  match values.find? fun p => decide (p.IsNamed text) && p.appliesTo t with
  | some p => .ok p
  | none => .error (.unknownPermission text t)

end TaskAccess.Permission
