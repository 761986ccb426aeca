/-!
# Documents

Documents are trees of lists and named members over texts, numbers and truth
values, as records are exchanged in.

## Main definitions

* `Document` — the tree.
* `Document.member?` — the member of a name.
* `Document.choice?`, `Document.text?`, `Document.optionalText?` — the readings of
  a document as one of several names, as a text, and as a text that may be missing.
-/

namespace TaskAccess

/-- A tree of lists and named members. -/
inductive Document
  | null
  | bool (value : Bool)
  /-- The decimal number `mantissa / 10 ^ places`. -/
  | number (mantissa : Int) (places : Nat)
  | text (value : String)
  | list (items : List Document)
  | object (members : List (String × Document))
  deriving Inhabited

namespace Document

/-- The member of a name, the last one if there are several. -/
def member? (members : List (String × Document)) (name : String) : Option Document :=
  (members.reverse.find? fun m => m.1 == name).map Prod.snd

/-- Reads one of several names: the name as a text, or as the only member of an
object, with nothing in it. -/
def choice? {α : Type} (ofName? : String → Option α) : Document → Option α
  | text name => ofName? name
  | object [(name, null)] => ofName? name
  | _ => none

/-- Reads a text. -/
def text? : Document → Option String
  | text value => some value
  | _ => none

/-- Reads a text that may be missing. -/
def optionalText? : Document → Option (Option String)
  | null => some none
  | text value => some (some value)
  | _ => none

/-- The document of a text that may be missing. -/
def ofOptionalText : Option String → Document
  | none => null
  | some value => text value

@[simp] theorem optionalText?_ofOptionalText (s : Option String) :
    optionalText? (ofOptionalText s) = some s := by
  cases s <;> rfl

end Document

end TaskAccess
