import Criteria.Json

/-!
# Reading data out of documents

Data is stored as an object with a member for each of its parts, or as an array of the parts in
order.  Members of other names are ignored; no part may occur twice.

Everything that reads an array or an object takes the number of arrays and objects that may still be
nested there, its own among them.

## What is here

* `Json.nesting` — how deep documents may be nested where something is read.
* `Json.parts?`, `Json.record?` — the parts of data, some or none of which may be missing.
* `Json.items?`, `Json.members?` — the items of an array, the members of an object.
* `Json.tag?` — one of several names.
* `Json.text?`, `Json.bool?`, `Json.natural?` — single values.
-/

set_option autoImplicit false

namespace Criteria
namespace Json

variable {α : Type}

/-- How deep documents may be nested where something is read. -/
def nesting : Nat := 127

/-- The parts of data with the given names.  Of an array, parts at the end may be missing. -/
def parts? (names : List String) : Nat → Json → Option (List (Option Json))
  | _ + 1, object members =>
    if names.all fun name => (members.filter (·.1 == name)).length ≤ 1 then
      some (names.map fun name => members.lookup name)
    else none
  | _ + 1, array items =>
    if items.length ≤ names.length then
      some (items.map some ++ List.replicate (names.length - items.length) none)
    else none
  | _, _ => none

/-- The parts of data with the given names, all of which have to be there. -/
def record? (names : List String) (room : Nat) (j : Json) : Option (List Json) :=
  (parts? names room j).bind (List.mapM id)

/-- The items of an array. -/
def items? : Nat → Json → Option (List Json)
  | _ + 1, array items => some items
  | _, _ => none

/-- The members of an object. -/
def members? : Nat → Json → Option (List (String × Json))
  | _ + 1, object members => some members
  | _, _ => none

/-- What one of several names stands for.  The name is a text, or the name of the only member of an
object, whose value is `null`. -/
def tag? (names : List (String × α)) : Nat → Json → Option α
  | _, text s => names.lookup s
  | _ + 1, object [(s, null)] => names.lookup s
  | _, _ => none

/-- A text. -/
def text? : Json → Option String
  | text s => some s
  | _ => none

/-- A truth value. -/
def bool? : Json → Option Bool
  | bool b => some b
  | _ => none

/-- A whole number that is not negative. -/
def natural? : Json → Option Nat
  | whole (.ofNat n) => some n
  | _ => none

end Json
end Criteria
