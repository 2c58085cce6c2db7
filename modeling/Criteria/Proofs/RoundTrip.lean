import Criteria.Proofs.Reading.Items
import Criteria.Proofs.Writing.Group

/-!
# Reading back what is written

Writing leaves out hidden fields and fields without entries, and an OR root without members looks
like an AND root.  Up to this, reading the text of a condition gives the condition, whether the text
refers to fields by their names or by their labels.

## What is here

* `Group.normal` — the tree that can be read back from the text of a tree.
* `conditionText_writeWith` — the text of a condition denotes that tree.
* `Condition.parse_write` — reading the text gives that tree, at every depth of nesting.
* `Condition.parse_writeLabelled` — so does reading the text with labels.

Nothing is said here about single values, fields or groups: what is written of them is in the
grammar, as shown in `Criteria.Proofs.Writing`, and what is in the grammar is read.  What is left is
the root, whose marker is written in front of the items or not at all.  A group in first place would
take the `*` of the root for its own if it started with a parenthesis, and this is why it has a
marker of its own then, even if it is an AND group.
-/

set_option autoImplicit false

namespace Criteria

open Grammar

namespace Group

/-- The tree that is written.  Without fields and groups the root is an AND group. -/
def normal (s : FieldSet) (g : Group) : Group :=
  if (g.exported s).isEmpty then { g.exported s with logical := .and } else g.exported s

/-- Where nothing is left to write, no items are written. -/
theorem isEmpty_exported (fields : FieldSet) (caption : String → String) (g : Group) :
    (g.exported fields).isEmpty = (g.rootItems fields caption).isEmpty := by
  obtain ⟨l, m, groups⟩ := g
  cases groups with
  | nil =>
    rw [exported, listExported, isEmpty, rootItems, groupItems]
    dsimp only
    rw [List.append_nil, fieldItems, NameMap.filter, List.isEmpty_map]
    simp
  | cons sub subs =>
    rw [exported, listExported, isEmpty, rootItems, groupItems]
    simp

/-- Where nothing is left to write, the tree that can be read back is the empty one. -/
theorem normal_of_isEmpty {fields : FieldSet} {g : Group}
    (h : (g.exported fields).isEmpty = true) : g.normal fields = {} := by
  rw [normal, if_pos h]
  rw [isEmpty, Bool.and_eq_true, List.isEmpty_iff, List.isEmpty_iff] at h
  exact eq_of_entries rfl h.1 h.2

end Group

/-! ## The root

The text starts with the `*` of an OR root, or with an item. -/

section Root

variable {settings : Settings} {fields : FieldSet} {caption : String → String} {g : Group}

/-- A marker is the start of an item. -/
theorem StartsItem.marker (l : Logical) : StartsItem (l.marker true) := by
  cases l with
  | and => exact ⟨'&', [], rfl, by decide, by decide⟩
  | or => exact ⟨'*', [], rfl, by decide, by decide⟩

/-- Behind the marker of the root no parenthesis follows: without fields in front of it, the first
group has a marker of its own. -/
theorem startsItem_rootItems (hor : g.logical = .or) (hne : g.rootItems fields caption ≠ [])
    (hback : (g.exported fields).TakenBack fields)
    (hcaption : (g.exported fields).Captioned fields settings.naming caption) :
    StartsItem ("; ".intercalate (g.rootItems fields caption)) := by
  obtain ⟨l, m, groups⟩ := g
  cases hor
  rw [Group.exported] at hback hcaption
  rw [Group.rootItems] at hne ⊢
  dsimp only at hne ⊢
  cases hm : Group.fieldItems fields caption m with
  | cons item items =>
    have hmem : item ∈ Group.fieldItems fields caption m := hm ▸ List.mem_cons_self
    obtain ⟨e, he, rfl⟩ := List.mem_map.1 hmem
    obtain ⟨field, hf, -⟩ := hback e he
    exact (((hcaption e he field hf).start.append _).append _).intercalate _
  | nil =>
    rw [hm, List.nil_append] at hne
    cases groups with
    | nil =>
      rw [Group.groupItems] at hne
      exact absurd rfl hne
    | cons sub subs =>
      rw [Group.groupItems]
      exact ((((StartsItem.marker _).append _).append _).append _).intercalate _

/-- The text of a tree denotes the tree that can be read back from it, if the captions of its fields
lead back to these fields. -/
theorem conditionText_writeWith
    (hback : (g.normal fields).Everywhere (fun _ g => g.TakenBack fields) 0)
    (hcaption : (g.normal fields).Everywhere
      (fun _ g => g.Captioned fields settings.naming caption) 0)
    (hw : (g.normal fields).Within settings) :
    ConditionText false settings fields (Condition.writeWith ⟨fields, g⟩ caption).toList
      (g.normal fields) := by
  have hempty := g.isEmpty_exported fields caption
  rw [Condition.writeWith]
  dsimp only
  -- if nothing is written, the text is empty whatever the root is, and denotes the empty AND group
  by_cases he : (g.exported fields).isEmpty = true
  · rw [Group.normal_of_isEmpty he]
    rw [he, eq_comm, List.isEmpty_iff] at hempty
    rw [hempty, List.isEmpty_nil, Bool.not_true, Bool.and_false]
    exact .and (.done (Run.refl ..))
  · have hnormal : g.normal fields = g.exported fields := if_neg he
    rw [hnormal] at hback hcaption hw ⊢
    have hitems : Items false settings fields 0
        (("; ".intercalate (g.rootItems fields caption)).toList ++ []) []
        { logical := g.logical } (g.exported fields) :=
      (addsAll_members _ g (hw.and (hback.and hcaption))).items_of_close .atEnd
    rw [List.append_nil] at hitems
    cases hl : g.logical with
    | and =>
      have hmark : (Logical.and == Logical.or) = false := rfl
      rw [hl] at hitems
      rw [hmark, Bool.false_and, if_neg (by simp), String.empty_append]
      exact .and hitems
    | or =>
      have hne : g.rootItems fields caption ≠ [] := fun hr => by
        rw [hr] at hempty
        exact he hempty
      have hstart := startsItem_rootItems hl hne (Group.everywhere_iff.1 hback).1
        (Group.everywhere_iff.1 hcaption).1
      rw [hl] at hitems
      rw [if_pos (by simpa using hne), String.toList_append]
      show ConditionText false settings fields ('*' :: ' ' ::
        ("; ".intercalate (g.rootItems fields caption)).toList) _
      exact .or (Run.refl ..) hstart.not_gaps (.of_spaces (run_cons rfl _) hitems)

/-- The text that refers to fields by their names denotes the tree. -/
theorem conditionText_write (hn : settings.naming = .byName)
    (hback : (g.normal fields).Everywhere (fun _ g => g.TakenBack fields) 0)
    (hw : (g.normal fields).Within settings) :
    ConditionText false settings fields (Condition.write ⟨fields, g⟩).toList (g.normal fields) := by
  refine conditionText_writeWith hback (Group.everywhere_of_forall (fun _ g => ?_) 0 _) hw
  rw [hn]
  exact g.captioned_name fields

end Root

/-! ## Reading back

The text denotes the tree, and so it is read as this tree, if the limits and the fields allow it. -/

namespace Condition

/-- **Reading the text of a condition gives the condition back**, without what is left out.  The
fields that are written have to be in the set and to read back their own values, and the tree has to
keep the limits. -/
theorem parse_write {settings : Settings} {fields : FieldSet} {t : Group}
    (hn : settings.naming = .byName)
    (hback : (t.normal fields).Everywhere (fun _ g => g.TakenBack fields) 0)
    (hw : (t.normal fields).Within settings) :
    parse settings fields (write ⟨fields, t⟩) = .ok ⟨fields, t.normal fields⟩ :=
  (State.ofSession_start _).2 (conditionText_write hn hback hw)

/-- An OR group with a hidden field and one without entries, and an AND group in it that holds an OR
group. -/
def sampleTree : Group where
  logical := .or
  fields := ⟨[("id", { excludedRanges := #[⟨.integer (-2), .integer 3, false, true⟩] }),
    ("secret", { simple := #[.text "x"] }), ("name", {})], by decide⟩
  groups := [{
    fields := ⟨[("name", { patterns := #[⟨⟨.atStart, true⟩, "a \"b\"", true⟩] })], by decide⟩
    groups := [{ logical := .or }] }]

/-- The fields of the sample take back what is written of its values. -/
theorem takenBack_sample :
    (sampleTree.normal .sample).Everywhere (fun _ g => g.TakenBack .sample) 0 := by
  have hid : (Criterion.excludedRange ⟨.integer (-2), .integer 3, false, true⟩).TakenBack
      { name := "id", converter := .integer } :=
    ⟨⟨by decide, rfl⟩, by decide, rfl⟩
  have hname : (Criterion.pattern ⟨⟨.atStart, true⟩, "a \"b\"", true⟩).TakenBack
      { name := "name", label := some "Full name", converter := .text } := by
    show OneLine "a \"b\""
    decide
  refine .mk ?_ fun sub hsub => ?_
  · intro e he
    cases List.mem_singleton.1 he
    exact ⟨_, rfl, fun c hc => List.mem_singleton.1 hc ▸ hid⟩
  · cases List.mem_singleton.1 hsub
    refine .mk ?_ fun sub hsub => ?_
    · intro e he
      cases List.mem_singleton.1 he
      exact ⟨_, rfl, fun c hc => List.mem_singleton.1 hc ▸ hname⟩
    · cases List.mem_singleton.1 hsub
      exact .mk (fun e he => absurd he List.not_mem_nil)
        fun sub hsub => absurd hsub List.not_mem_nil

/-- The sample keeps its limits. -/
theorem within_sample : (sampleTree.normal .sample).Within { maxDepth := 2, maxValues := 1 } := by
  refine .mk ⟨by decide, by decide, by decide⟩ fun sub hsub => ?_
  cases List.mem_singleton.1 hsub
  refine .mk ⟨by decide, by decide, by decide⟩ fun sub hsub => ?_
  cases List.mem_singleton.1 hsub
  exact .mk ⟨by decide, by decide, by decide⟩ fun sub hsub => absurd hsub List.not_mem_nil

/-- The text of the tree is `* id: !]-2 ~ 3; (name: ~i!>"a ""b"""; *())`. -/
theorem parse_write_sample :
    parse { maxDepth := 2, maxValues := 1 } .sample (write ⟨.sample, sampleTree⟩) =
      .ok ⟨.sample, sampleTree.normal .sample⟩ :=
  parse_write rfl takenBack_sample within_sample

/-- **Reading the text with labels gives the condition back as well**, and with it the tree that
reading the text with names gives.  The labels of the fields that are written have to lead back to
these fields. -/
theorem parse_writeLabelled {settings : Settings} {fields : FieldSet} {t : Group}
    (hn : settings.naming = .byLabel)
    (hback : (t.normal fields).Everywhere (fun _ g => g.TakenBack fields) 0)
    (hlabels : (t.normal fields).Everywhere (fun _ g => g.ReadsByLabel fields) 0)
    (hw : (t.normal fields).Within settings) :
    parse settings fields (writeLabelled ⟨fields, t⟩ Field.caption) =
        .ok ⟨fields, t.normal fields⟩ ∧
      parse { settings with naming := .byName } fields (write ⟨fields, t⟩) =
        .ok ⟨fields, t.normal fields⟩ := by
  refine ⟨(State.ofSession_start _).2 (conditionText_writeWith hback ?_ hw),
    (State.ofSession_start _).2 (conditionText_write rfl hback (hw.renamed .byName))⟩
  rw [hn]
  exact hlabels.mono fun _ _ hg => hg.captioned

/-- The labels in the sample are read back. -/
theorem readsByLabel_sample :
    (sampleTree.normal .sample).Everywhere (fun _ g => g.ReadsByLabel .sample) 0 := by
  have hid : Field.ReadsByLabel .sample { name := "id", converter := .integer } := by
    refine ⟨by decide, ?_, ?_, forall_mem_of_all (by decide), by decide, rfl⟩
    · rintro x ⟨⟩
      decide
    · rintro x ⟨⟩
      decide
  have hname : Field.ReadsByLabel .sample
      { name := "name", label := some "Full name", converter := .text } := by
    refine ⟨by decide, ?_, ?_, forall_mem_of_all (by decide), by decide, rfl⟩
    · rintro x ⟨⟩
      decide
    · rintro x ⟨⟩
      decide
  refine .mk ?_ fun sub hsub => ?_
  · intro e he f hf
    cases List.mem_singleton.1 he
    cases hf
    exact hid
  · cases List.mem_singleton.1 hsub
    refine .mk ?_ fun sub hsub => ?_
    · intro e he f hf
      cases List.mem_singleton.1 he
      cases hf
      exact hname
    · cases List.mem_singleton.1 hsub
      exact .mk (fun e he => absurd he List.not_mem_nil)
        fun sub hsub => absurd hsub List.not_mem_nil

/-- The text of the tree is `* id: !]-2 ~ 3; (Full name: ~i!>"a ""b"""; *())`. -/
theorem parse_writeLabelled_sample :
    parse { maxDepth := 2, maxValues := 1, naming := .byLabel } .sample
        (writeLabelled ⟨.sample, sampleTree⟩ Field.caption) =
        .ok ⟨.sample, sampleTree.normal .sample⟩ ∧
      parse { maxDepth := 2, maxValues := 1 } .sample (write ⟨.sample, sampleTree⟩) =
        .ok ⟨.sample, sampleTree.normal .sample⟩ :=
  parse_writeLabelled rfl takenBack_sample readsByLabel_sample (within_sample.renamed .byLabel)

end Condition
end Criteria
