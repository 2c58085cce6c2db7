import Criteria.Field
import Criteria.Group

/-!
# Search conditions

## What is here

* `Condition` — a condition tree and the set of fields that it is about.
* `Condition.agrees` — equality of conditions: the sets have the same name, the trees are equal.
-/

set_option autoImplicit false

namespace Criteria

/-- A condition tree about the fields of a set. -/
structure Condition where
  fields : FieldSet
  root : Group

namespace Condition

/-- Whether the condition asks for nothing. -/
def isEmpty (c : Condition) : Bool :=
  c.root.isEmpty

/-- Whether two conditions are about sets of the same name and have equal trees. -/
def agrees (a b : Condition) : Bool :=
  a.fields.name == b.fields.name && a.root == b.root

instance : BEq Condition :=
  ⟨agrees⟩

end Condition
end Criteria
