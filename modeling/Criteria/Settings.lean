/-!
# Settings for reading conditions

## What is here

* `Naming` — whether a condition refers to fields by their names or by their labels.
* `Settings` — that, and the limits on the size of a condition.
-/

set_option autoImplicit false

namespace Criteria

/-- How a condition refers to fields. -/
inductive Naming where
  | byName
  | byLabel
deriving DecidableEq

/-- The limits on a condition, and how it refers to fields. -/
structure Settings where
  /-- How deep groups may be nested; the root is not counted. -/
  maxDepth : Nat := 100
  /-- How many values a field may have in a group. -/
  maxValues : Nat := 10000
  /-- How many subgroups a group may have. -/
  maxGroups : Nat := 100
  naming : Naming := .byName
deriving DecidableEq

end Criteria
