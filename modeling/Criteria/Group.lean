import Criteria.Bag
import Criteria.NameMap

/-!
# The condition tree

A group combines the conditions on its fields and its subgroups, either all or any of which have
to hold.

## What is here

* `Logical` — how the members of a group are combined.
* `Group` — a node of the tree: a logical, the bags of the fields in the order of their
  declaration, and the subgroups in order.
* `Group.agrees` — equality of trees, in which the order of the fields does not matter, and that of
  values and subgroups does.
-/

set_option autoImplicit false

namespace Criteria

/-- How the members of a group are combined. -/
inductive Logical where
  | and
  | or
deriving DecidableEq, Inhabited

/-- The name of the combination. -/
def Logical.name : Logical → String
  | and => "AND"
  | or => "OR"

/-- A node of the condition tree. -/
structure Group where
  logical : Logical := .and
  fields : NameMap Bag := .empty
  groups : List Group := []

namespace Group

instance : Inhabited Group :=
  ⟨{}⟩

/-- Sets the bag of a field, replacing an earlier one in its place. -/
def addField (g : Group) (name : String) (bag : Bag) : Group :=
  { g with fields := g.fields.insert name bag }

/-- Adds a subgroup behind the others. -/
def addGroup (g : Group) (sub : Group) : Group :=
  { g with groups := g.groups ++ [sub] }

/-- Whether the group has neither fields nor subgroups. -/
def isEmpty (g : Group) : Bool :=
  g.fields.entries.isEmpty && g.groups.isEmpty

/-! ## Equality -/

mutual

/-- Whether two trees are equal up to the order of the fields of a group. -/
def agrees : Group → Group → Bool
  | ⟨l, fs, gs⟩, ⟨l', fs', gs'⟩ => decide (l = l') && fs.agrees fs' && listAgrees gs gs'

/-- Whether two lists of trees are equal member by member. -/
def listAgrees : List Group → List Group → Bool
  | [], [] => true
  | g :: gs, g' :: gs' => agrees g g' && listAgrees gs gs'
  | _, _ => false

end

instance : BEq Group :=
  ⟨agrees⟩

end Group
end Criteria
