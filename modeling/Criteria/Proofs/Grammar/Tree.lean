import Criteria.Proofs.Grammar.FieldToken
import Criteria.Proofs.Tree

/-!
# The trees that the grammar builds

Items add to the group in front of them and change nothing that is there.  What holds of the empty
group and is kept by each item therefore holds of the tree of a text, and what a limit allows in the
finished group it has allowed at every item.

Two consequences are drawn.  The tree of a text is well-formed, since an empty group is and since
each item checks what it adds.  And smaller limits do nothing but reject: every derivation under the
greater limits whose tree keeps the smaller ones is a derivation under the smaller ones.

## What is here

* `Items.extends` — the fields and the groups that were there are the first ones in the end.
* `Group.Accepted` — what the grammar sees to in a group: `Items.everywhere_accepted`.
* `Items.mono`, `Items.of_within`, `conditionText_iff_within` — smaller limits allow the same texts,
  except those whose trees exceed them.
-/

set_option autoImplicit false

namespace Criteria

/-! ## Texts and values

What a single value carries along from the text that it was read from. -/

/-- An entry whose values are read from texts without line breaks, as are the texts of patterns. -/
def Criterion.ReadBy (field : Field) : Criterion → Prop :=
  Holds (fun v => ∃ s, Grammar.OneLine s ∧ field.converter.read s = .ok v) Grammar.OneLine

namespace Grammar

variable {loose : Bool} {field : Field} {cs rest : List Char}

/-- A text of the grammar is one line. -/
theorem LiteralText.oneLine {s : String} (h : LiteralText cs rest s) : OneLine s := by
  cases h with
  | bare _ plain _ =>
    intro c hc
    rw [Bool.eq_false_iff]
    intro hl
    have hs := (Text.isPlain_iff.1 (plain c hc)).1
    rw [Text.isSpace_of_isLineBreak hl] at hs
    cases hs
  | quoted line _ => exact line

/-- A value of the grammar was made by its field, out of one line. -/
theorem ValueText.readBy {v : Criterion} (h : ValueText loose field cs rest v) :
    v.ReadBy field := by
  cases h with
  | simple literal | excluded literal | comparison _ _ literal =>
    obtain ⟨s, hs, hv⟩ := literal
    exact ⟨s, hs.oneLine, hv⟩
  | range r | excludedRange r =>
    obtain ⟨-, ⟨s, hs, hv⟩, -, -, ⟨s', hs', hv'⟩, -⟩ := r
    exact ⟨⟨s, hs.oneLine, hv⟩, ⟨s', hs'.oneLine, hv'⟩⟩
  | pattern _ _ literal => exact literal.oneLine

/-- There is at least one value, and all of them were made by the field. -/
theorem ValueList.readBy {vs : List Criterion} (h : ValueList loose field cs rest vs) :
    vs ≠ [] ∧ ∀ v ∈ vs, v.ReadBy field := by
  induction h with
  | one value => exact ⟨by simp, by simpa using value.readBy⟩
  | more value _ _ _ ih => exact ⟨by simp, by simpa using ⟨value.readBy, ih.2⟩⟩

/-- A name or a label stands for a field of the set. -/
theorem FieldToken.mem {fields : FieldSet} {naming : Naming}
    (h : FieldToken fields naming cs rest field) : field ∈ fields.fields := by
  cases h with
  | name _ _ _ _ found => exact List.mem_of_find?_eq_some found
  | label _ _ _ _ found => exact List.mem_of_find?_eq_some found

end Grammar

/-! ## Well-formed groups

A group is well-formed with respect to the settings and the fields, at its depth.  Both operations
that extend a group keep this, if what they add has it and the limits are not reached. -/

namespace Group

/-- What is seen to in a group when it is read: the limits, that no name occurs twice, that the
names are those of fields, and that these take the values. -/
structure Accepted (settings : Settings) (fields : FieldSet) (depth : Nat) (g : Group) : Prop
    extends KeepsLimits settings depth g where
  names : g.fields.names.Nodup
  entries : ∀ e ∈ g.fields.entries, ∃ field ∈ fields.fields, field.name = e.1 ∧ 1 ≤ e.2.count ∧
    ∀ c ∈ e.2.toList, c.ReadBy field

variable {settings : Settings} {fields : FieldSet} {depth : Nat} {g sub : Group}

/-- An empty group is well-formed, at any depth that is allowed. -/
theorem accepted_new (logical : Logical) (h : depth ≤ settings.maxDepth) :
    Everywhere (Accepted settings fields) depth { logical } := by
  refine .mk ⟨⟨h, Nat.zero_le _, fun e he => ?_⟩, NameMap.nodup _, fun e he => ?_⟩ (by simp)
  · exact absurd he List.not_mem_nil
  · exact absurd he List.not_mem_nil

/-- A new field is the last one. -/
theorem entries_addField {name : String} (hn : g.fields.contains name = false) (bag : Bag) :
    (g.addField name bag).fields.entries = g.fields.entries ++ [(name, bag)] :=
  NameMap.insert_entries_of_not_contains hn bag

/-- A new field of the set with one or more values that it takes can be added. -/
theorem Everywhere.addField {field : Field} {vs : List Criterion}
    (h : Everywhere (Accepted settings fields) depth g) (hf : field ∈ fields.fields)
    (hn : g.fields.contains field.name = false) (hne : vs ≠ [])
    (hl : vs.length ≤ settings.maxValues) (hv : ∀ v ∈ vs, v.ReadBy field) :
    Everywhere (Accepted settings fields) depth
      (g.addField field.name (vs.foldl Bag.add {})) := by
  obtain ⟨⟨⟨hd, hg, hvalues⟩, hnames, hentries⟩, inside⟩ := h
  have hcount : (vs.foldl Bag.add {}).count = vs.length := by
    rw [Bag.count_foldl_add, show ({} : Bag).count = 0 from rfl, Nat.zero_add]
  refine .mk ⟨⟨hd, hg, fun e he => ?_⟩, NameMap.nodup _, fun e he => ?_⟩ inside
  · rw [entries_addField hn, List.mem_append, List.mem_singleton] at he
    rcases he with he | rfl
    · exact hvalues e he
    · exact hcount ▸ hl
  · rw [entries_addField hn, List.mem_append, List.mem_singleton] at he
    rcases he with he | rfl
    · exact hentries e he
    · refine ⟨field, hf, rfl, hcount ▸ List.length_pos_iff.2 hne, fun c hc => hv c ?_⟩
      exact ((Bag.mem_foldl_add vs {}).1 hc).resolve_left (by simp [Bag.toList])

/-- A well-formed group can be added to one that has room for it. -/
theorem Everywhere.addGroup (h : Everywhere (Accepted settings fields) depth g)
    (hl : g.groups.length < settings.maxGroups)
    (hs : Everywhere (Accepted settings fields) (depth + 1) sub) :
    Everywhere (Accepted settings fields) depth (g.addGroup sub) := by
  obtain ⟨⟨⟨hd, -, hvalues⟩, hnames, hentries⟩, inside⟩ := h
  refine .mk ⟨⟨hd, ?_, hvalues⟩, hnames, hentries⟩ fun k hk => ?_
  · rw [Group.addGroup, List.length_append]
    exact hl
  · rcases List.mem_append.1 hk with hk | hk
    · exact inside k hk
    · rwa [List.mem_singleton.1 hk]

end Group

namespace Grammar

variable {loose : Bool} {settings small : Settings} {fields : FieldSet} {depth : Nat}
  {cs rest : List Char} {g g' : Group}

/-- Items of the grammar leave a group as it is accepted. -/
theorem Items.everywhere_accepted (h : Items loose settings fields depth cs rest g g')
    (hg : g.Everywhere (Group.Accepted settings fields) depth) :
    g'.Everywhere (Group.Accepted settings fields) depth := by
  induction h with
  | done => exact hg
  | pair _ hp hn hl _ ih =>
    obtain ⟨htoken, -, hvs, -, -⟩ := hp
    obtain ⟨hne, hv⟩ := hvs.readBy
    exact ih (hg.addField htoken.mem hn hne hl hv)
  | group _ _ hd hl _ _ _ ihbody ih => exact ih (hg.addGroup hl (ihbody (Group.accepted_new _ hd)))

/-! ## Limits

The group that the items start with only grows.  So a limit that the finished tree keeps was never
exceeded on the way. -/

/-- Items only add fields and groups behind those that are there. -/
theorem Items.extends (h : Items loose settings fields depth cs rest g g') :
    g.fields.entries <+: g'.fields.entries ∧ g.groups <+: g'.groups := by
  induction h with
  | done => exact ⟨List.prefix_rfl, List.prefix_rfl⟩
  | pair _ _ hn _ _ ih =>
    refine ⟨List.IsPrefix.trans ?_ ih.1, ih.2⟩
    rw [Group.entries_addField hn]
    exact List.prefix_append ..
  | group _ _ _ _ _ _ _ _ ih => exact ⟨ih.1, (List.prefix_append ..).trans ih.2⟩

/-- Items are items under greater limits. -/
theorem Items.mono (hn : small.naming = settings.naming) (hd : small.maxDepth ≤ settings.maxDepth)
    (hv : small.maxValues ≤ settings.maxValues) (hg : small.maxGroups ≤ settings.maxGroups)
    (h : Items loose small fields depth cs rest g g') :
    Items loose settings fields depth cs rest g g' := by
  induction h with
  | done spaces => exact .done spaces
  | pair spaces hp hnew hl _ ih => exact .pair spaces (hn ▸ hp) hnew (Nat.le_trans hl hv) ih
  | group spaces hs hdeep hl _ hf _ ihbody ih =>
    exact .group spaces hs (Nat.lt_of_lt_of_le hdeep hd) (Nat.lt_of_lt_of_le hl hg) ihbody hf ih

/-- Items are items under other limits if what they make of the group keeps these. -/
theorem Items.of_within (hn : small.naming = settings.naming)
    (h : Items loose settings fields depth cs rest g g')
    (hw : g'.Everywhere (Group.KeepsLimits small) depth) :
    Items loose small fields depth cs rest g g' := by
  induction h with
  | done spaces => exact .done spaces
  | @pair _ _ _ _ _ g g' field vs spaces hp hnew _ hi ih =>
    refine .pair spaces (hn ▸ hp) hnew ?_ (ih hw)
    -- the bag of the field is still there in the end
    have hmem := hi.extends.1.subset (a := (field.name, vs.foldl Bag.add {})) (by
      rw [Group.entries_addField hnew]
      simp)
    have hcount := (Group.everywhere_iff.1 hw).1.values _ hmem
    rw [Bag.count_foldl_add] at hcount
    exact Nat.le_trans (Nat.le_add_left ..) hcount
  | @group _ _ _ _ _ _ _ g sub g' _ spaces hs _ _ _ hf hi ihbody ih =>
    obtain ⟨here, inside⟩ := Group.everywhere_iff.1 hw
    -- so is the group
    have hsub := inside sub (hi.extends.2.subset (by simp [Group.addGroup]))
    have hlength := hi.extends.2.length_le
    rw [Group.addGroup, List.length_append] at hlength
    exact .group spaces hs (Group.everywhere_iff.1 hsub).1.depth
      (Nat.lt_of_lt_of_le hlength here.groups) (ihbody hsub) hf (ih hw)

/-! ## Whole conditions -/

variable {t : Group}

/-- The tree of a whole condition is well-formed, from the root on. -/
theorem ConditionText.everywhere_accepted (h : ConditionText loose settings fields cs t) :
    t.Everywhere (Group.Accepted settings fields) 0 := by
  cases h with
  | and items => exact items.everywhere_accepted (Group.accepted_new .and (Nat.zero_le _))
  | or _ _ items => exact items.everywhere_accepted (Group.accepted_new .or (Nat.zero_le _))

/-- The tree of a whole condition keeps the limits. -/
theorem ConditionText.within (h : ConditionText loose settings fields cs t) : t.Within settings :=
  h.everywhere_accepted.mono fun _ _ hg => hg.toKeepsLimits

/-- A smaller limit only leaves out the texts whose trees exceed it. -/
theorem conditionText_iff_within (hn : small.naming = settings.naming)
    (hd : small.maxDepth ≤ settings.maxDepth) (hv : small.maxValues ≤ settings.maxValues)
    (hg : small.maxGroups ≤ settings.maxGroups) :
    ConditionText loose small fields cs t ↔
      ConditionText loose settings fields cs t ∧ t.Within small := by
  constructor
  · intro h
    refine ⟨?_, h.within⟩
    cases h with
    | and items => exact .and (items.mono hn hd hv hg)
    | or spaces noGroup items => exact .or spaces noGroup (items.mono hn hd hv hg)
  · rintro ⟨h, hw⟩
    cases h with
    | and items => exact .and (items.of_within hn hw)
    | or spaces noGroup items => exact .or spaces noGroup (items.of_within hn hw)

end Grammar
end Criteria
