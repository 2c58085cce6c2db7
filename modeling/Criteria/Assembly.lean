import Criteria.Group

/-!
# Putting a condition tree together

An assembly holds the groups under construction: the root, the groups that were entered and not yet
left, and the field whose entries are being collected.  A group becomes part of its parent when it
is left, a field when it is closed.

## What is here

* `Assembly` — the groups and the field under construction; `Assembly.current` is the group that
  receives fields and subgroups.
* `Misuse` — the reasons for which an operation is refused.
* `Assembly.Edit` — an operation on an assembly, which may be refused and leaves an assembly behind
  in both cases.
* `Assembly.openField`, `Assembly.add`, `Assembly.closeField`, `Assembly.abandonField`,
  `Assembly.enterGroup`, `Assembly.leaveGroup`, `Assembly.discardGroup`, `Assembly.finish`.
-/

set_option autoImplicit false

namespace Criteria

/-- Why an operation on an assembly is refused. -/
inductive Misuse where
  | duplicateField (name : String)
  | fieldStillOpen (name : String)
  | noOpenField
  | cannotLeaveRoot
  | groupsStillOpen (number : Nat)

/-- The text of the reason. -/
def Misuse.message : Misuse → String
  | duplicateField name => "field \"" ++ name ++ "\" is already declared in this group"
  | fieldStillOpen name => "field \"" ++ name ++ "\" is still open"
  | noOpenField => "no field is open"
  | cannotLeaveRoot => "cannot leave the root group"
  | groupsStillOpen number => toString number ++ " group(s) still open"

/-- The groups and the field under construction. -/
structure Assembly where
  /-- The outermost group. -/
  root : Group := {}
  /-- The groups entered and not yet left, the innermost first. -/
  frames : List Group := []
  /-- The open field and its entries so far. -/
  openField? : Option (String × Bag) := none

namespace Assembly

instance : Inhabited Assembly :=
  ⟨{}⟩

/-- An operation that may be refused. -/
abbrev Edit := EStateM Misuse Assembly Unit

/-- The group that receives fields and subgroups. -/
def current (a : Assembly) : Group :=
  a.frames.headD a.root

/-- The number of groups entered and not yet left. -/
def depth (a : Assembly) : Nat :=
  a.frames.length

/-- Replaces the group that receives fields and subgroups. -/
def updateCurrent (f : Group → Group) : Assembly → Assembly
  | ⟨root, [], o⟩ => ⟨f root, [], o⟩
  | ⟨root, g :: frames, o⟩ => ⟨root, f g :: frames, o⟩

/-- Sets how the members of the root are combined. -/
def setRootLogical (l : Logical) (a : Assembly) : Assembly :=
  { a with root := { a.root with logical := l } }

/-! ## Fields -/

/-- Opens a field that the current group does not have yet. -/
def openField (name : String) : Edit
  | ⟨root, frames, some (other, bag)⟩ =>
    .error (.fieldStillOpen other) ⟨root, frames, some (other, bag)⟩
  | ⟨root, frames, none⟩ =>
    if (frames.headD root).fields.contains name then
      .error (.duplicateField name) ⟨root, frames, none⟩
    else .ok () ⟨root, frames, some (name, {})⟩

/-- Adds an entry to the open field. -/
def add (c : Criterion) : Edit
  | ⟨root, frames, some (name, bag)⟩ => .ok () ⟨root, frames, some (name, bag.add c)⟩
  | ⟨root, frames, none⟩ => .error .noOpenField ⟨root, frames, none⟩

/-- Closes the open field, which becomes part of the current group. -/
def closeField : Edit
  | ⟨root, frames, some (name, bag)⟩ =>
    .ok () (updateCurrent (·.addField name bag) ⟨root, frames, none⟩)
  | ⟨root, frames, none⟩ => .error .noOpenField ⟨root, frames, none⟩

/-- Drops the open field and its entries, if there is one. -/
def abandonField (a : Assembly) : Assembly :=
  { a with openField? := none }

/-! ## Groups -/

/-- Starts a subgroup of the current group. -/
def enterGroup (l : Logical) : Edit
  | ⟨root, frames, some (name, bag)⟩ =>
    .error (.fieldStillOpen name) ⟨root, frames, some (name, bag)⟩
  | ⟨root, frames, none⟩ => .ok () ⟨root, { logical := l } :: frames, none⟩

/-- Ends the current group, which becomes the last subgroup of its parent. -/
def leaveGroup : Edit
  | ⟨root, frames, some (name, bag)⟩ =>
    .error (.fieldStillOpen name) ⟨root, frames, some (name, bag)⟩
  | ⟨root, [], none⟩ => .error .cannotLeaveRoot ⟨root, [], none⟩
  | ⟨root, g :: frames, none⟩ => .ok () (updateCurrent (·.addGroup g) ⟨root, frames, none⟩)

/-- Drops the open field and the current group.  At the root there is no group to drop. -/
def discardGroup : Edit
  | ⟨root, [], _⟩ => .error .cannotLeaveRoot ⟨root, [], none⟩
  | ⟨root, _ :: frames, _⟩ => .ok () ⟨root, frames, none⟩

/-- The finished tree. -/
def finish : Assembly → Except Misuse Group
  | ⟨_, _, some (name, _)⟩ => .error (.fieldStillOpen name)
  | ⟨root, [], none⟩ => .ok root
  | ⟨_, g :: frames, none⟩ => .error (.groupsStillOpen (g :: frames).length)

end Assembly
end Criteria
