import Criteria.Assembly

/-!
# What the operations on an assembly do to its groups

An assembly is seen as the list of its groups, the current one first and the root last, and the
field that is open.

This view is what makes the operations simple.  The assembly itself keeps the root apart from the
groups that are under construction, so that every operation has one case for the root and one for
the others; in the view there is only a list, whose head is changed, pushed or popped.

## What is here

* `Assembly.Shows` — the assembly holds these groups and this open field.
* One lemma for each operation: when it succeeds, and what the assembly shows then.

Each of the lemmas also says that the operation succeeds, so a sequence of operations is followed by
chaining them, and nothing has to be said about refusals.  When an operation is refused, and what is
left behind then, is the subject of `Criteria.Proofs.Assembly.Operation`.
-/

set_option autoImplicit false

namespace Criteria
namespace Assembly

/-- The current group is `g`, the groups around it are `outer`, the innermost first, and `field?` is
the open field with its entries. -/
structure Shows (a : Assembly) (g : Group) (outer : List Group)
    (field? : Option (String × Bag)) : Prop where
  groups : a.frames ++ [a.root] = g :: outer
  field : a.openField? = field?

variable {a : Assembly} {g p : Group} {outer : List Group} {name : String} {bag : Bag}

/-- A new assembly shows its root, and no open field. -/
theorem shows_new (root : Group) : Shows { root } root [] none :=
  ⟨rfl, rfl⟩

/-- The current group is the first one shown. -/
theorem Shows.current {field? : Option (String × Bag)} (h : Shows a g outer field?) :
    a.current = g := by
  obtain ⟨root, _ | ⟨f, frames⟩, o⟩ := a
  · exact (List.cons.inj h.groups).1
  · exact (List.cons.inj h.groups).1

/-- The depth is the number of the groups around the current one. -/
theorem Shows.length {field? : Option (String × Bag)} (h : Shows a g outer field?) :
    a.depth = outer.length := by
  have hl := congrArg List.length h.groups
  rw [List.length_append, List.length_cons, List.length_cons, List.length_nil] at hl
  rw [depth]
  omega

/-- A change of the current group leaves the groups around it, and the open field, as they are. -/
theorem Shows.updateCurrent {field? : Option (String × Bag)} (f : Group → Group)
    (h : Shows a g outer field?) : Shows (updateCurrent f a) (f g) outer field? := by
  obtain ⟨root, _ | ⟨k, frames⟩, o⟩ := a
  · obtain ⟨hg, ho⟩ := List.cons.inj h.groups
    exact ⟨by rw [← hg, ← ho]; rfl, h.field⟩
  · obtain ⟨hg, ho⟩ := List.cons.inj h.groups
    exact ⟨by rw [← hg, ← ho]; rfl, h.field⟩

/-! ## Fields

A field is open from its name to its last entry.  While it is, no other field can be opened and no
group entered or left. -/

/-- A field is opened, without entries, if the group does not have it yet. -/
theorem Shows.openField (h : Shows a g outer none) (hn : g.fields.contains name = false) :
    ∃ b, openField name a = .ok () b ∧ Shows b g outer (some (name, {})) := by
  have hc := h.current
  obtain ⟨root, frames, o⟩ := a
  obtain ⟨hg, rfl⟩ := h
  refine ⟨⟨root, frames, some (name, {})⟩, ?_, ⟨hg, rfl⟩⟩
  rw [Assembly.current] at hc
  rw [Assembly.openField, hc, hn]
  rfl

/-- Only a field that the group does not have yet can be opened. -/
theorem new_of_openField {b : Assembly} (h : Shows a g outer none)
    (ho : Assembly.openField name a = .ok () b) : g.fields.contains name = false := by
  have hc := h.current
  obtain ⟨root, frames, o⟩ := a
  obtain ⟨hg, rfl⟩ := h
  rw [Assembly.current] at hc
  rw [Assembly.openField, hc] at ho
  split at ho
  · cases ho
  · next hn => simpa using hn

/-- An entry is added to the open field, and to nothing else. -/
theorem Shows.add (h : Shows a g outer (some (name, bag))) (c : Criterion) :
    ∃ b, add c a = .ok () b ∧ Shows b g outer (some (name, bag.add c)) := by
  obtain ⟨root, frames, o⟩ := a
  obtain ⟨hg, rfl⟩ := h
  exact ⟨_, rfl, hg, rfl⟩

/-- A field that is closed becomes the last field of its group. -/
theorem Shows.closeField (h : Shows a g outer (some (name, bag))) :
    ∃ b, closeField a = .ok () b ∧ Shows b (g.addField name bag) outer none := by
  obtain ⟨root, frames, o⟩ := a
  obtain ⟨hg, rfl⟩ := h
  exact ⟨_, rfl, Shows.updateCurrent (a := ⟨root, frames, none⟩) _ ⟨hg, rfl⟩⟩

/-! ## Groups

A group is part of its parent only when it is left; before, it stands in front of it. -/

/-- An empty group comes in front of the others. -/
theorem Shows.enterGroup (h : Shows a g outer none) (l : Logical) :
    ∃ b, enterGroup l a = .ok () b ∧ Shows b { logical := l } (g :: outer) none := by
  obtain ⟨root, frames, o⟩ := a
  obtain ⟨hg, rfl⟩ := h
  exact ⟨_, rfl, by rw [← hg]; rfl, rfl⟩

/-- The group that is left becomes the last subgroup of its parent, which is the current group from
then on. -/
theorem Shows.leaveGroup (h : Shows a g (p :: outer) none) :
    ∃ b, leaveGroup a = .ok () b ∧ Shows b (p.addGroup g) outer none := by
  obtain ⟨root, _ | ⟨f, frames⟩, o⟩ := a
  · cases (List.cons.inj h.groups).2
  · obtain ⟨hg, rfl⟩ := h
    obtain ⟨rfl, ho⟩ := List.cons.inj hg
    exact ⟨_, rfl, Shows.updateCurrent (a := ⟨root, frames, none⟩) (·.addGroup f) ⟨ho, rfl⟩⟩

/-- Outside of all groups and fields, the finished tree is the root. -/
theorem Shows.finish (h : Shows a g [] none) : a.finish = .ok g := by
  obtain ⟨root, _ | ⟨f, frames⟩, o⟩ := a
  · obtain ⟨hg, rfl⟩ := h
    rw [← (List.cons.inj hg).1]
    rfl
  · exact absurd (List.cons.inj h.groups).2 (by simp)

end Assembly
end Criteria
