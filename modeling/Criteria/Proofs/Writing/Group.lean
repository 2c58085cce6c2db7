import Criteria.Proofs.Grammar.Items
import Criteria.Proofs.Grammar.Tree
import Criteria.Proofs.Writing.Caption
import Criteria.Proofs.Writing.Entry

/-!
# Written groups are items of the grammar

An item makes one group another, and so do several with `;` between them.  The items that are
written for a group make the empty group the group that is written, whatever its fields are called
in them, as long as they are read back under these captions.

## What is here

* `Group.exported` — the tree without the fields that are left out: `Group.everywhere_exported`.
* `Group.TakenBack` — the fields of the group are in the set and read back what they write.
* `Group.Captioned` — the fields of the group are read back under their captions;
  `Group.ReadsByLabel` is what this asks of their labels.
* `Adds`, `AddsAll` — what written items make of a group; `AddsAll.items_of_close` ties this to the
  grammar.
* `addsAll_members` — the items of a group, by recursion over the tree.

The parentheses of a group, the marker in front of them, and the `; ` between items are part of what
is written, so the texts are followed character by character up to the items.  Each item is said to
add something in front of anything that ends a field, `Adds`; what follows it may be the next item,
or the end of the group.
-/

set_option autoImplicit false

namespace Criteria

open Grammar

/-! ## The tree that is written

What is said of every group of a tree is said of the groups that are written, if it does not depend
on the fields that are left out. -/

/-- The entries with a property. -/
def NameMap.filter {α : Type} (p : String × α → Bool) (m : NameMap α) : NameMap α where
  entries := m.entries.filter p
  nodup := m.nodup.sublist (List.filter_sublist.map Prod.fst)

namespace Group

mutual

/-- The group with the fields that are written, here and in all groups in it. -/
def exported (s : FieldSet) : Group → Group
  | ⟨l, fields, groups⟩ => ⟨l, fields.filter s.exports, listExported s groups⟩

/-- The groups with the fields that are written. -/
def listExported (s : FieldSet) : List Group → List Group
  | [] => []
  | g :: gs => exported s g :: listExported s gs

end

/-- Of a list of groups all are exported. -/
theorem listExported_eq (s : FieldSet) (gs : List Group) :
    listExported s gs = gs.map (exported s) := by
  induction gs with
  | nil => rfl
  | cons g gs ih => rw [listExported, ih, List.map_cons]

/-- In the exported tree every field can be seen and has entries. -/
theorem everywhere_exported (s : FieldSet) (depth : Nat) : (g : Group) →
    (g.exported s).Everywhere (fun _ g => ∀ e ∈ g.fields.entries,
      s.isHidden e.1 = false ∧ e.2.isEmpty = false) depth
  | ⟨l, fields, groups⟩ => by
    rw [exported, listExported_eq]
    refine .mk (fun e he => ?_) fun sub hsub => ?_
    · have hexports := (List.mem_filter.1 he).2
      simpa [FieldSet.exports] using hexports
    · obtain ⟨g, hg, rfl⟩ := List.mem_map.1 hsub
      exact everywhere_exported s (depth + 1) g

/-- The items of a group are those of its fields and of its subgroups. -/
theorem items_eq (s : FieldSet) (caption : String → String) (g : Group) :
    items s caption g = fieldItems s caption g.fields ++ groupItems s caption false g.groups := by
  obtain ⟨l, fields, groups⟩ := g
  rw [items]

/-- The fields of the group are in the set, and read back their entries. -/
def TakenBack (fields : FieldSet) (g : Group) : Prop :=
  ∀ e ∈ g.fields.entries, ∃ field, fields.find? e.1 = some field ∧
    ∀ c ∈ e.2.toList, c.TakenBack field

/-- What `caption` gives for the names of the fields of the group is read back as these fields. -/
def Captioned (fields : FieldSet) (naming : Naming) (caption : String → String) (g : Group) :
    Prop :=
  ∀ e ∈ g.fields.entries, ∀ field, fields.find? e.1 = some field →
    Captions fields naming (caption e.1) field

/-- The fields of a group are found again by their names. -/
theorem captioned_name (fields : FieldSet) (g : Group) :
    g.Captioned fields .byName fun name => name :=
  fun _ _ _ hf => captions_name hf

/-- The labels of the fields of the group lead back to these fields. -/
def ReadsByLabel (fields : FieldSet) (g : Group) : Prop :=
  ∀ e ∈ g.fields.entries, ∀ field, fields.find? e.1 = some field → field.ReadsByLabel fields

/-- The fields of a group are found again by their labels, if each label leads back to its field. -/
theorem ReadsByLabel.captioned {fields : FieldSet} {g : Group} (h : g.ReadsByLabel fields) :
    g.Captioned fields .byLabel fun name => match fields.find? name with
      | some f => f.caption
      | none => name := by
  intro e he field hf
  simp only [hf]
  exact captions_label (h e he field hf)

/-- A group is told by its logical, its entries and its subgroups. -/
theorem eq_of_entries {g g' : Group} (hl : g.logical = g'.logical)
    (hf : g.fields.entries = g'.fields.entries) (hg : g.groups = g'.groups) : g = g' := by
  obtain ⟨l, ⟨entries, hn⟩, groups⟩ := g
  obtain ⟨l', ⟨entries', hn'⟩, groups'⟩ := g'
  cases hl
  cases hf
  cases hg
  rfl

end Group

/-! ## Items

Items that add one after the other add all of it. -/

/-- Behind the group `g` the text is an item that makes it the group `g'`, whatever follows. -/
def Adds (settings : Settings) (fields : FieldSet) (depth : Nat) (item : String) (g g' : Group) :
    Prop :=
  ∀ tail mid rest g'', PairEnd tail mid → Items false settings fields depth mid rest g' g'' →
    Items false settings fields depth (item.toList ++ tail) rest g g''

/-- One after another the texts are items that make the group `g` the group `g'`. -/
inductive AddsAll (settings : Settings) (fields : FieldSet) (depth : Nat) :
    List String → Group → Group → Prop
  | nil {g : Group} : AddsAll settings fields depth [] g g
  | cons {item : String} {items : List String} {g g' g'' : Group}
      (first : Adds settings fields depth item g g')
      (others : AddsAll settings fields depth items g' g'') :
      AddsAll settings fields depth (item :: items) g g''

section Items

variable {settings : Settings} {fields : FieldSet} {depth : Nat} {g g' g'' : Group}
  {items items' : List String}

/-- Items behind items add to what those have made. -/
theorem AddsAll.append (h : AddsAll settings fields depth items g g')
    (h' : AddsAll settings fields depth items' g' g'') :
    AddsAll settings fields depth (items ++ items') g g'' := by
  induction h with
  | nil => exact h'
  | cons first _ ih => exact .cons first (ih h')

/-- With a `;` and a space between them the texts are the items of a group, up to its end. -/
theorem AddsAll.items_of_close (h : AddsAll settings fields depth items g g') {close : List Char}
    (hc : PairEnd close close) :
    Items false settings fields depth (("; ".intercalate items).toList ++ close) close g g' := by
  induction h with
  | nil => exact .done (Run.refl ..)
  | @cons item _ _ g' _ first others ih =>
    cases others with
    | nil =>
      rw [String.intercalate_singleton]
      exact first _ _ _ _ hc (.done (Run.refl ..))
    | @cons item' items =>
      rw [String.intercalate_cons_cons, String.toList_append, String.toList_append,
        List.append_assoc, List.append_assoc]
      exact first _ _ _ _ .semicolon (.of_spaces (run_cons rfl _) ih)

/-! ## Fields

A written field is one of the grammar and is new in the group that it is added to, since a map has
no name twice. -/

/-- A written field is an item that adds the field with its entries. -/
theorem adds_field {name text : String} {field : Field} {bag : Bag}
    (hf : fields.find? name = some field) (ht : Captions fields settings.naming text field)
    (hb : bag.isEmpty = false) (hc : ∀ c ∈ bag.toList, c.TakenBack field)
    (hl : bag.count ≤ settings.maxValues) (hnew : g.fields.contains name = false) :
    Adds settings fields depth (text ++ ": " ++ bag.write (fields.write name)) g
      (g.addField name bag) := by
  obtain ⟨rfl, -⟩ := field_of_find? hf
  have hwrite : fields.write field.name = field.converter.write := by
    funext v
    rw [FieldSet.write, hf]
  intro tail mid rest g'' hend hitems
  rw [hwrite, String.toList_append, String.toList_append, List.append_assoc, List.append_assoc]
  have htoken : FieldToken fields settings.naming (text.toList ++ (": ".toList ++
      ((bag.write field.converter.write).toList ++ tail)))
      (' ' :: ((bag.write field.converter.write).toList ++ tail)) field := ht.token _
  refine .pair (Run.refl ..) (.mk htoken (run_cons rfl _) (Bag.valueList_write false hb hc _)
    (Run.refl ..) hend) hnew ?_ ?_
  · rwa [Bag.length_toList]
  · rwa [Bag.foldl_toList]

/-- The written fields of a group are items that add these fields. -/
theorem addsAll_fields {caption : String → String} (todo : List (String × Bag)) :
    ∀ {g g' : Group}, g'.logical = g.logical → g'.groups = g.groups →
      g'.fields.entries = g.fields.entries ++ todo → (∀ e ∈ todo, fields.exports e = true) →
      g'.TakenBack fields → g'.Captioned fields settings.naming caption →
      g'.KeepsLimits settings depth → AddsAll settings fields depth
        (todo.map fun e => caption e.1 ++ ": " ++ e.2.write (fields.write e.1)) g g' := by
  induction todo with
  | nil =>
    intro g g' hlogical hgroups hentries _ _ _ _
    rw [List.append_nil] at hentries
    rw [Group.eq_of_entries hlogical hentries hgroups]
    exact .nil
  | cons e todo ih =>
    intro g g' hlogical hgroups hentries hexports hback hcaption hlimits
    have hmem : e ∈ g'.fields.entries := by
      rw [hentries]
      simp
    -- a map has no name twice, so the next field is not among those that have been added
    have hnew : g.fields.contains e.1 = false := by
      have hnodup := g'.fields.nodup
      rw [hentries, List.map_append, List.nodup_append] at hnodup
      rw [Bool.eq_false_iff, Ne, NameMap.contains_iff]
      exact fun hm => hnodup.2.2 e.1 hm e.1 (by simp) rfl
    obtain ⟨field, hf, hc⟩ := hback e hmem
    have hb : e.2.isEmpty = false := by
      have hexport := hexports e (by simp)
      rw [FieldSet.exports, Bool.and_eq_true, Bool.not_eq_true', Bool.not_eq_true'] at hexport
      exact hexport.2
    refine .cons (adds_field hf (hcaption e hmem field hf) hb hc (hlimits.values e hmem) hnew) ?_
    refine ih hlogical hgroups ?_ (fun e he => hexports e (by simp [he])) hback hcaption hlimits
    rw [Group.entries_addField hnew, hentries, List.append_assoc]
    rfl

/-! ## Groups

The items of a subgroup make an empty group the subgroup, which is then added; by recursion over the
tree. -/

/-- A marker and a parenthesis start a group, whether the marker is written or left out. -/
theorem groupStart_marker (forced : Bool) (l : Logical) (cs : List Char) :
    GroupStart ((l.marker forced).toList ++ '(' :: cs) cs l := by
  cases l with
  | or =>
    rw [Logical.marker]
    exact .or (Run.refl ..)
  | and =>
    cases forced with
    | true => exact .and (Run.refl ..)
    | false => exact .bare (Run.refl ..)

/-- A written group is an item that adds the group. -/
theorem adds_group (forced : Bool) {l : Logical} {sub : Group} (hd : depth < settings.maxDepth)
    (hl : g.groups.length < settings.maxGroups)
    (h : AddsAll settings fields (depth + 1) items { logical := l } sub) :
    Adds settings fields depth (l.marker forced ++ "(" ++ "; ".intercalate items ++ ")") g
      (g.addGroup sub) := by
  intro tail mid rest g'' hend hitems
  simp only [String.toList_append, List.append_assoc]
  have hbody : Items false settings fields (depth + 1)
      (("; ".intercalate items).toList ++ ')' :: tail) (')' :: tail) { logical := l } sub :=
    h.items_of_close .close
  have hbehind : GroupEnd tail mid := by
    cases hend with
    | semicolon => exact .semicolon (Run.refl ..)
    | close => exact .bare (Run.refl ..)
    | atEnd => exact .bare (Run.refl ..)
  exact .group (Run.refl ..) (groupStart_marker forced l _) hd hl hbody hbehind hitems

end Items

mutual

/-- The items of a group make the empty group the group that is written. -/
theorem addsAll_members {settings : Settings} {fields : FieldSet} {caption : String → String}
    (forced : Bool) {depth : Nat} : (g : Group) →
    (g.exported fields).Everywhere (fun d g => g.KeepsLimits settings d ∧ g.TakenBack fields ∧
      g.Captioned fields settings.naming caption) depth →
    AddsAll settings fields depth
      (Group.fieldItems fields caption g.fields ++ Group.groupItems fields caption forced g.groups)
      { logical := g.logical } (g.exported fields)
  | ⟨l, m, groups⟩, h => by
    obtain ⟨⟨hlimits, hback, hcaption⟩, inside⟩ := h
    have hfields : AddsAll settings fields depth (Group.fieldItems fields caption m)
        { logical := l } ⟨l, m.filter fields.exports, []⟩ :=
      addsAll_fields _ rfl rfl rfl (fun e he => (List.mem_filter.1 he).2) hback hcaption
        ⟨hlimits.depth, Nat.zero_le _, hlimits.values⟩
    exact hfields.append (addsAll_groupItems forced groups _ inside
      ((Nat.zero_add _).symm ▸ hlimits.groups))

/-- The items of groups add these groups. -/
theorem addsAll_groupItems {settings : Settings} {fields : FieldSet} {caption : String → String}
    (forced : Bool) {depth : Nat} : (gs : List Group) → (g : Group) →
    (∀ sub ∈ Group.listExported fields gs, sub.Everywhere
      (fun d g => g.KeepsLimits settings d ∧ g.TakenBack fields ∧
        g.Captioned fields settings.naming caption) (depth + 1)) →
    g.groups.length + (Group.listExported fields gs).length ≤ settings.maxGroups →
    AddsAll settings fields depth (Group.groupItems fields caption forced gs) g
      { g with groups := g.groups ++ Group.listExported fields gs }
  | [], ⟨_, _, _⟩, _, _ => by
    rw [Group.groupItems, Group.listExported, List.append_nil]
    exact .nil
  | sub :: gs, g, h, hl => by
    rw [Group.listExported, List.length_cons] at hl
    rw [Group.groupItems, Group.listExported, Group.items_eq]
    have hsub := h (sub.exported fields) (by rw [Group.listExported]; simp)
    have hadds := addsAll_members false sub hsub
    have hrest := addsAll_groupItems false gs (g.addGroup (sub.exported fields))
      (fun k hk => h k (by rw [Group.listExported]; simp [hk]))
      (by rw [Group.addGroup, List.length_append, List.length_singleton]; omega)
    refine .cons (adds_group forced (Group.everywhere_iff.1 hsub).1.1.depth (by omega) hadds) ?_
    rwa [Group.addGroup, List.append_assoc] at hrest

end

end Criteria
