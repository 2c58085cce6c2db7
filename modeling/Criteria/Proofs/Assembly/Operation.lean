import Criteria.Proofs.Reading.Bookkeeping

/-!
# Operations on an assembly, one after the other

Whoever uses an assembly may ignore a refusal and go on.  Then it matters what a refused operation
has left behind; one would like it to be nothing.  All operations but one ask first and change
afterwards.  Dropping a group does it the other way round, and the field that was open is gone when
the refusal comes.

## What is here

* `Assembly.Operation` — the operations that may be refused, as data; `Operation.edit` is what they
  do.
* `Assembly.perform` — operations one after the other, up to the first refusal.
* `Assembly.after` — the assembly that they leave behind, whatever is refused on the way.
* `Operation.unchanged_iff_of_refused` — a refused operation leaves the assembly as it was, except
  when a group is to be dropped at the root and a field is open: then the field is dropped.
-/

set_option autoImplicit false

namespace Criteria
namespace Assembly

/-- An operation on an assembly that may be refused. -/
inductive Operation where
  | openField (name : String)
  | add (entry : Criterion)
  | closeField
  | enterGroup (logical : Logical)
  | leaveGroup
  | discardGroup

namespace Operation

/-- What the operation does. -/
def edit : Operation → Edit
  | openField name => Assembly.openField name
  | add entry => Assembly.add entry
  | closeField => Assembly.closeField
  | enterGroup logical => Assembly.enterGroup logical
  | leaveGroup => Assembly.leaveGroup
  | discardGroup => Assembly.discardGroup

/-- What the operation leaves behind, whether it is refused or not. -/
def apply (op : Operation) (a : Assembly) : Assembly :=
  match op.edit a with
  | .ok _ b => b
  | .error _ b => b

end Operation

/-- The operations one after the other.  The first one that is refused ends them, so that they
succeed only if none is. -/
def perform : List Operation → Edit
  | [] => pure ()
  | op :: ops => op.edit >>= fun _ => perform ops

/-- The assembly behind the operations, which start from an empty one and go on behind a refusal. -/
def after (ops : List Operation) : Assembly :=
  ops.foldl (fun a op => op.apply a) {}

/-! ## Refusals

A refused operation leaves the assembly as it was or without its open field, so to be unchanged is
to have had no field open. -/

section Refusal

variable {op : Operation} {a b : Assembly} {m : Misuse}

/-- A refused operation changes nothing, unless it is to drop a group. -/
theorem Operation.eq_of_refused (h : op.edit a = .error m b) (hop : op ≠ .discardGroup) :
    b = a := by
  obtain ⟨root, frames, field?⟩ := a
  cases op with
  | openField name =>
    cases field? with
    | none =>
      rw [edit, Assembly.openField] at h
      split at h <;> cases h
      rfl
    | some open' =>
      cases h
      rfl
  | add | closeField | enterGroup =>
    cases field? <;> cases h
    rfl
  | leaveGroup => cases frames <;> cases field? <;> cases h <;> rfl
  | discardGroup => exact absurd rfl hop

/-- At the root there is no group to drop, but an open field is dropped all the same. -/
theorem of_discardGroup_refused (h : discardGroup a = .error m b) :
    m = .cannotLeaveRoot ∧ a.depth = 0 ∧ b = a.abandonField := by
  obtain ⟨root, _ | ⟨g, frames⟩, field?⟩ := a <;> cases h
  exact ⟨rfl, rfl, rfl⟩

/-- Giving up the open field changes nothing only where there is none. -/
theorem abandonField_eq_iff : a.abandonField = a ↔ a.openField? = none :=
  ⟨fun h => congrArg openField? h.symm, abandonField_eq⟩

namespace Operation

/-- **A refused operation changes nothing**, neither the root nor a group under construction nor the
open field with its entries.  There is one exception: a group that is to be dropped at the root
takes an open field with it, and this is all that changes. -/
theorem unchanged_iff_of_refused (h : op.edit a = .error m b) :
    (b = a ↔ op ≠ .discardGroup ∨ a.openField? = none) ∧
      (op = .discardGroup → m = .cannotLeaveRoot ∧ a.depth = 0 ∧ b = a.abandonField) := by
  by_cases hop : op = .discardGroup
  · subst hop
    obtain ⟨hm, hd, hb⟩ := of_discardGroup_refused h
    refine ⟨?_, fun _ => ⟨hm, hd, hb⟩⟩
    rw [hb, abandonField_eq_iff]
    simp
  · exact ⟨iff_of_true (eq_of_refused h hop) (.inl hop), fun he => absurd he hop⟩

/-- In a group that has the field `id`, and with the field `name` open, `id` is refused for the open
field, which is still there with its entry. -/
theorem unchanged_of_refused_sample :
    ∃ b, (openField "id").edit (after [.enterGroup .or, .openField "id", .closeField,
        .openField "name", .add (.simple (.text "x"))]) = .error (.fieldStillOpen "name") b ∧
      b = after [.enterGroup .or, .openField "id", .closeField, .openField "name",
        .add (.simple (.text "x"))] := by
  have h : (openField "id").edit (after [.enterGroup .or, .openField "id", .closeField,
      .openField "name", .add (.simple (.text "x"))]) = .error (.fieldStillOpen "name") _ := rfl
  exact ⟨_, h, (unchanged_iff_of_refused h).1.2 (.inl nofun)⟩

/-- Dropping a group at the root is refused, and a field that was open is gone behind it. -/
theorem not_unchanged_of_refused :
    ¬∀ (ops : List Operation) (op : Operation) (m : Misuse) (b : Assembly),
      op.edit (after ops) = .error m b → b = after ops := by
  intro h
  have hb := h [.openField "f"] .discardGroup .cannotLeaveRoot {} rfl
  exact absurd (congrArg openField? hb) nofun

end Operation

end Refusal

end Assembly
end Criteria
