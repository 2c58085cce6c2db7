import Criteria.Proofs.Assembly.Script
import Mathlib.Data.List.Induction

/-!
# How an open field came to be open

A field that is closed becomes part of the current group, in place of a field of the same name if
there is one.  That there is none rests on what was done since the field was opened.

Nothing in an assembly says when its field was opened, and closing the field does not look whether
the group has one of this name by now.  So the statement is about histories: any list of steps from
an empty assembly, among them refused ones, given-up fields, and edits of the root by whoever owns
the assembly.  That the open field is new in its group was checked when it was opened; what has to
be seen is that nothing which is possible while a field is open changes the group or its fields.

## What is here

* `Assembly.Step` — everything that can be done to an assembly, up to edits of the fields of the
  root; `Assembly.reached` is the assembly behind any steps, whatever is refused on the way.
* `Assembly.KeepsOpen` — a field is open in the group that was the current one, with some entries.
* `Assembly.Step.of_openField` — a field that is open behind a step was opened by it, or was open
  before and is kept open in the same group.
* `Assembly.OpenSince`, `Assembly.exists_openSince` — an open field was opened by one of the steps
  and kept open by all later ones.
* `Assembly.reached_never_overwrites` — so no field takes the place of another one.

`KeepsOpen` is the invariant that is carried from step to step.  It compares two moments, the one in
front of the step that opened the field and the present one, and says that the groups are the same
and that the entries are those added in between.  The induction is on the end of the list of steps,
since it is the last step that is known.
-/

set_option autoImplicit false

namespace Criteria
namespace Assembly

/-- What can be done to an assembly. -/
inductive Step where
  | operate (op : Operation)
  | abandonField
  /-- An edit of the root that leaves its fields: they stay, whatever becomes of the rest. -/
  | editRoot (logical : Logical) (groups : List Group)

namespace Step

/-- What the step leaves behind, whether it is refused or not. -/
def apply : Step → Assembly → Assembly
  | operate op, a => op.apply a
  | abandonField, a => a.abandonField
  | editRoot logical groups, a => { a with root := { a.root with logical, groups } }

/-- The entry that the step adds to an open field. -/
def entry? : Step → Option Criterion
  | operate (.add entry) => some entry
  | _ => none

end Step

/-- The assembly behind the steps, which start from an empty one and go on behind a refusal. -/
def reached (steps : List Step) : Assembly :=
  steps.foldl (fun a s => s.apply a) {}

@[simp] theorem reached_append_singleton (steps : List Step) (s : Step) :
    reached (steps ++ [s]) = s.apply (reached steps) :=
  List.foldl_append

/-- In `b` the field `name` is open with the given entries, in the group that is the current one
in `a`: no group was entered or left, and the root has the same fields. -/
structure KeepsOpen (a b : Assembly) (name : String) (entries : List Criterion) : Prop where
  field : b.openField? = some (name, entries.foldl Bag.add {})
  frames : b.frames = a.frames
  rootFields : b.root.fields = a.root.fields

variable {a b : Assembly} {name : String} {bag : Bag} {entries : List Criterion}

/-! ## One step

Whether a step is refused or not, it leaves an assembly.  A field that is open then was opened by
this step, or was open before. -/

/-- What an operation does if it is not refused. -/
theorem Operation.apply_of_ok {op : Operation} (h : op.edit a = .ok () b) : op.apply a = b := by
  rw [apply, h]

theorem Operation.apply_of_error {op : Operation} {m : Misuse} (h : op.edit a = .error m b) :
    op.apply a = b := by
  rw [apply, h]

/-- A field that could be opened is new in its group, and open without entries. -/
theorem of_openField_ok (h : openField name a = .ok () b) :
    a.current.fields.contains name = false ∧ KeepsOpen a b name [] := by
  obtain ⟨root, frames, _ | field⟩ := a
  · rw [openField] at h
    split at h
    · cases h
    · next hn =>
      cases h
      exact ⟨Bool.eq_false_iff.2 hn, rfl, rfl, rfl⟩
  · cases h

/-- A field that is open behind a step was opened by it, or it was open before, and the step adds
its entry, if it has one, and leaves the groups. -/
theorem Step.of_openField {s : Step} (h : (s.apply a).openField? = some (name, bag)) :
    (s = operate (.openField name) ∧ openField name a = .ok () (s.apply a)) ∨
      ∃ old, a.openField? = some (name, old) ∧ bag = ([s].filterMap entry?).foldl Bag.add old ∧
        (s.apply a).frames = a.frames ∧ (s.apply a).root.fields = a.root.fields := by
  obtain ⟨root, frames, field?⟩ := a
  cases s with
  | abandonField => cases h
  | editRoot logical groups => exact .inr ⟨bag, h, rfl, rfl, rfl⟩
  | operate op =>
    cases op with
    | openField other =>
      cases field? with
      | some field => exact .inr ⟨bag, h, rfl, rfl, rfl⟩
      | none =>
        cases hopen : (Operation.openField other).edit ⟨root, frames, none⟩ with
        | error m b =>
          have hb := Operation.eq_of_refused hopen nofun
          rw [apply, Operation.apply_of_error hopen, hb] at h
          cases h
        | ok u b =>
          -- the only step behind which a field is open that was not open before
          have hok : openField other ⟨root, frames, none⟩ = .ok () b := hopen
          rw [apply, Operation.apply_of_ok hopen] at h ⊢
          cases (of_openField_ok hok).2.field.symm.trans h
          exact .inl ⟨rfl, hok⟩
    | add entry =>
      cases field? with
      | none => cases h
      | some field =>
        cases h
        exact .inr ⟨field.2, rfl, rfl, rfl, rfl⟩
    | closeField =>
      cases field? with
      | none => cases h
      | some field => cases frames <;> cases h
    | enterGroup logical =>
      cases field? with
      | none => cases h
      | some field => exact .inr ⟨bag, h, rfl, rfl, rfl⟩
    | leaveGroup =>
      cases field? with
      | some field => exact .inr ⟨bag, h, rfl, rfl, rfl⟩
      | none =>
        cases frames with
        | nil => cases h
        | cons g frames => cases frames <;> cases h
    | discardGroup => cases frames <;> cases h

/-! ## Many steps

The step that opened a field is the last one that did so; from there on every step kept it open. -/

/-- The field was opened by the step behind `before`, and at every moment of `since` it is open in
the same group, with the entries that were added so far. -/
structure OpenSince (before since : List Step) (name : String) : Prop where
  opened : openField name (reached before) =
    .ok () (reached (before ++ [.operate (.openField name)]))
  keeps : ∀ done, done <+: since →
    KeepsOpen (reached before) (reached (before ++ .operate (.openField name) :: done)) name
      (done.filterMap Step.entry?)

/-- An open field was opened by one of the steps and kept open by all later ones. -/
theorem exists_openSince {steps : List Step} (h : (reached steps).openField? = some (name, bag)) :
    ∃ before since, steps = before ++ .operate (.openField name) :: since ∧
      OpenSince before since name := by
  induction steps using List.reverseRecOn generalizing bag with
  | nil => cases h
  | append_singleton steps s ih =>
    rw [reached_append_singleton] at h
    rcases Step.of_openField h with ⟨rfl, hopen⟩ | ⟨old, hold, hbag, hframes, hfields⟩
    · refine ⟨steps, [], rfl, ⟨by rwa [reached_append_singleton], fun done hdone => ?_⟩⟩
      rw [List.prefix_nil.1 hdone, reached_append_singleton]
      exact (of_openField_ok hopen).2
    · obtain ⟨before, since, rfl, hsince⟩ := ih hold
      refine ⟨before, since ++ [s], by simp, ⟨hsince.opened, fun done hdone => ?_⟩⟩
      rcases List.prefix_concat_iff.1 hdone with rfl | hdone
      · obtain ⟨hfield, hf, hr⟩ := hsince.keeps since List.prefix_rfl
        rw [← List.cons_append, ← List.append_assoc, reached_append_singleton]
        refine ⟨?_, hframes.trans hf, hfields.trans hr⟩
        cases hfield.symm.trans hold
        rw [h, hbag, List.filterMap_append, List.foldl_append]
      · exact hsince.keeps done hdone

/-- While a field is kept open, its group has the fields that it had. -/
theorem KeepsOpen.current_fields (h : KeepsOpen a b name entries) :
    b.current.fields = a.current.fields := by
  rw [current, current, h.frames]
  cases a.frames with
  | nil => exact h.rootFields
  | cons => rfl

/-- An open field has the entries that were added since it was opened. -/
theorem OpenSince.keepsOpen {before since : List Step} (h : OpenSince before since name) :
    KeepsOpen (reached before) (reached (before ++ .operate (.openField name) :: since)) name
      (since.filterMap Step.entry?) :=
  h.keeps since List.prefix_rfl

/-- The name of an open field is none of those of the current group. -/
theorem OpenSince.contains_eq_false {before since : List Step} (h : OpenSince before since name) :
    (reached (before ++ .operate (.openField name) :: since)).current.fields.contains name =
      false := by
  rw [h.keepsOpen.current_fields]
  exact (of_openField_ok h.opened).1

/-- What can be closed is open. -/
theorem exists_field_of_closeField (h : closeField a = .ok () b) :
    ∃ name bag, a.openField? = some (name, bag) := by
  obtain ⟨root, frames, _ | ⟨name, bag⟩⟩ := a
  · cases h
  · exact ⟨name, bag, rfl⟩

theorem exists_shows (a : Assembly) : ∃ g outer, Shows a g outer a.openField? := by
  obtain ⟨root, _ | ⟨g, frames⟩, field?⟩ := a
  · exact ⟨root, [], rfl, rfl⟩
  · exact ⟨g, frames ++ [root], rfl, rfl⟩

/-- **No field takes the place of another one.**  Take the assembly behind any steps.  The names in
a group are distinct, in all groups under construction and the groups in them.  An open field was
opened by one of the steps, has been open in the same group ever since, and its name is none of
those in this group.  When it is closed, it becomes the last field of the group, with just the
entries that were added since it was opened, those of each kind in their order, and no other field
of any group changes. -/
theorem reached_never_overwrites (steps : List Step) :
    (∀ g ∈ (reached steps).frames ++ [(reached steps).root],
        Group.Everywhere (fun _ k => k.fields.names.Nodup) 0 g) ∧
      (∀ name bag, (reached steps).openField? = some (name, bag) →
        (reached steps).current.fields.contains name = false ∧
          ∃ before since, steps = before ++ .operate (.openField name) :: since ∧
            OpenSince before since name) ∧
      ∀ b, closeField (reached steps) = .ok () b → ∃ before since name bag g outer g',
        steps = before ++ .operate (.openField name) :: since ∧ OpenSince before since name ∧
          bag.Lists (since.filterMap Step.entry?) ∧
          Shows (reached steps) g outer (some (name, bag)) ∧ Shows b g' outer none ∧
          g'.logical = g.logical ∧ g'.groups = g.groups ∧
          g'.fields.entries = g.fields.entries ++ [(name, bag)] := by
  refine ⟨fun g _ => Group.everywhere_of_forall (fun _ k => k.fields.nodup) 0 g,
    fun name bag h => ?_, fun b hb => ?_⟩
  · obtain ⟨before, since, rfl, hsince⟩ := exists_openSince h
    exact ⟨hsince.contains_eq_false, before, since, rfl, hsince⟩
  · obtain ⟨name, bag, h⟩ := exists_field_of_closeField hb
    obtain ⟨before, since, rfl, hsince⟩ := exists_openSince h
    obtain ⟨g, outer, hg⟩ := exists_shows (reached (before ++ .operate (.openField name) :: since))
    rw [h] at hg
    obtain ⟨d, hd, hclosed⟩ := hg.closeField
    cases hb.symm.trans hd
    have hnew := hsince.contains_eq_false
    rw [hg.current] at hnew
    refine ⟨before, since, name, bag, g, outer, _, rfl, hsince, ?_, hg, hclosed, rfl, rfl,
      Group.entries_addField hnew bag⟩
    cases hsince.keepsOpen.field.symm.trans h
    exact Bag.lists_foldl_add _

/-- The field `id` is dropped, opened again, and stays open while another field and a group are
refused and the root is edited. -/
theorem reached_never_overwrites_sample :
    ∃ (b : Assembly) (before since : List Step) (name : String) (bag : Bag),
      closeField (reached [.operate (.enterGroup .or), .operate (.openField "id"), .abandonField,
        .operate (.openField "id"), .operate (.add (.excluded (.integer 1))),
        .operate (.openField "name"), .operate (.enterGroup .and), .editRoot .or [{}],
        .operate (.add (.simple (.integer 2)))]) = .ok () b ∧
      OpenSince before since name ∧ bag.Lists (since.filterMap Step.entry?) ∧
      (name, bag) ∈ b.current.fields.entries := by
  have h : closeField (reached [.operate (.enterGroup .or), .operate (.openField "id"),
      .abandonField, .operate (.openField "id"), .operate (.add (.excluded (.integer 1))),
      .operate (.openField "name"), .operate (.enterGroup .and), .editRoot .or [{}],
      .operate (.add (.simple (.integer 2)))]) = .ok () _ := rfl
  obtain ⟨before, since, name, bag, g, outer, g', -, hsince, hlists, -, hg', -, -, hentries⟩ :=
    (reached_never_overwrites _).2.2 _ h
  refine ⟨_, before, since, name, bag, h, hsince, hlists, ?_⟩
  rw [hg'.current, hentries]
  exact List.mem_append_right _ (List.mem_singleton_self _)

end Assembly
end Criteria
