import Criteria.Export.Document
import Criteria.Proofs.Writing.Group

/-!
# Exports keep hidden fields to themselves

What is written depends on the tree that `Group.exported` leaves, and on nothing else: neither on
the values of hidden fields nor on whether there are any.  Markers of groups and parentheses could
give a hidden field away, since they depend on what else is written; so could leaving out groups in
a document.

## What is here

* `Condition.exports` — the text of a condition, the text with labels, and the document.
* `Group.items_exported`, `Group.members_exported` — the same is written of the exported tree.
* `Condition.exports_exported` — the exports of a tree are those of the exported tree.

A field without values is written no more than a hidden one, so it is taken out together with those.
The functions that write look again whether a field is to be written, and find that all that are
left are.
-/

set_option autoImplicit false

namespace Criteria

/-! ## The exported tree -/

@[simp] theorem NameMap.entries_filter {α : Type} (p : String × α → Bool) (m : NameMap α) :
    (m.filter p).entries = m.entries.filter p := rfl

namespace Group

section Exported

variable (s : FieldSet) (caption : String → String)

/-! ## Texts

The items of a group are the same for both trees, by recursion on the tree; the parentheses depend
on these items only. -/

/-- The fields that are left are those that are written. -/
theorem fieldItems_exported (fields : NameMap Bag) :
    fieldItems s caption (fields.filter s.exports) = fieldItems s caption fields := by
  simp [fieldItems, List.filter_filter]

/-- What a group is exported as is combined in the same way. -/
theorem logical_exported (g : Group) : (g.exported s).logical = g.logical := by
  obtain ⟨l, fields, groups⟩ := g
  rfl

mutual

theorem items_exported : (g : Group) → items s caption (exported s g) = items s caption g
  | ⟨l, fields, groups⟩ => by
    rw [exported, items, items, fieldItems_exported, groupItems_exported false groups]

theorem groupItems_exported (forced : Bool) : (gs : List Group) →
    groupItems s caption forced (listExported s gs) = groupItems s caption forced gs
  | [] => rfl
  | g :: gs => by
    rw [listExported, groupItems, groupItems, logical_exported, items_exported g,
      groupItems_exported false gs]

end

/-- At the root, too, the same is written. -/
theorem rootItems_exported (g : Group) :
    (g.exported s).rootItems s caption = g.rootItems s caption := by
  obtain ⟨l, fields, groups⟩ := g
  simp only [exported, rootItems, fieldItems_exported, groupItems_exported]

/-! ## Documents

The same for the members of an object. -/

/-- The fields that are left are those that the document has. -/
theorem fieldMembers_exported (fields : NameMap Bag) :
    fieldMembers s (fields.filter s.exports) = fieldMembers s fields := by
  simp [fieldMembers, List.filter_filter]

mutual

theorem members_exported : (g : Group) → members s (exported s g) = members s g
  | ⟨l, fields, groups⟩ => by
    simp only [exported, members, fieldMembers_exported, documents_exported groups]

theorem documents_exported : (gs : List Group) → documents s (listExported s gs) = documents s gs
  | [] => rfl
  | g :: gs => by
    simp only [listExported, documents, members_exported g, documents_exported gs]

end

end Exported

end Group

/-! ## Exports -/

namespace Condition

variable {fields : FieldSet}

/-- What is written of a condition: its text, its text with the labels that `label` gives for the
fields, and its document. -/
def exports (label : Field → String) (c : Condition) : String × String × Json :=
  (c.write, c.writeLabelled label, c.document)

/-- The text is the same, whatever the fields are called in it. -/
theorem writeWith_exported (caption : String → String) (t : Group) :
    writeWith ⟨fields, t.exported fields⟩ caption = writeWith ⟨fields, t⟩ caption := by
  simp only [writeWith, Group.rootItems_exported, Group.logical_exported]

/-- **Nothing that is written tells anything about a hidden field.**  The exports of a tree are
those of the tree without its hidden fields and its fields without entries.  So they are the same
for any two trees that are left equal without these fields. -/
theorem exports_exported (fields : FieldSet) (label : Field → String) (t : Group) :
    (t.exported fields).Everywhere (fun _ g => ∀ e ∈ g.fields.entries,
        fields.isHidden e.1 = false ∧ e.2.isEmpty = false) 0 ∧
      exports label ⟨fields, t⟩ = exports label ⟨fields, t.exported fields⟩ ∧
      ∀ t' : Group, t'.exported fields = t.exported fields →
        exports label ⟨fields, t'⟩ = exports label ⟨fields, t⟩ := by
  have hexports : ∀ t : Group,
      exports label ⟨fields, t.exported fields⟩ = exports label ⟨fields, t⟩ := fun t => by
    simp only [exports, write, writeLabelled, document, Group.document, writeWith_exported,
      Group.members_exported]
  refine ⟨t.everywhere_exported fields 0, (hexports t).symm, fun t' ht' => ?_⟩
  rw [← hexports t', ht', hexports t]

/-- Whether an OR group holds a text of a hidden field or not, it is written `* &(id: 1)`. -/
theorem exports_exported_sample :
    exports Field.caption ⟨.sample, {
        logical := .or
        fields := ⟨[("secret", { simple := #[.text "x"] }), ("name", {})], by decide⟩
        groups := [{ fields := ⟨[("id", { simple := #[.integer 1] })], by decide⟩ }] }⟩ =
      exports Field.caption ⟨.sample, {
        logical := .or
        groups := [{ fields := ⟨[("id", { simple := #[.integer 1] })], by decide⟩ }] }⟩ :=
  (exports_exported .sample Field.caption _).2.2 _ rfl

end Condition
end Criteria
