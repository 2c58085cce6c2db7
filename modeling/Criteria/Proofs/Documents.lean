import Criteria.Export.Document
import Criteria.Proofs.Writing.Group

/-!
# What can be told from a document

A document leaves out whatever is empty, bounds that belong to their range, and AND.  Still two
trees have the same document only if all that is written of them is the same.

What is left out of a document could make two trees look the same that are not.  A list of values
without entries is left out, and so is a field without values, a group without fields, and the
logical of a group if it is AND.  `Group.pruned` takes the same things off the tree, so that the
question becomes whether a document tells a pruned tree, which is a matter of taking it apart member
by member.

## What is here

* `Bag.asTexts`, `Group.pruned` — what a document shows of a tree: the fields that are written, with
  the texts of their values, and the groups in which there is one.
* `Json.listMember_append_inj` — the members of an object that may be left out can be told apart.
* `Bag.document_inj` — what is written of a field can be read off its document.
* `Group.members_inj` — so can what is written of a group.
* `Condition.document_eq_iff` — two trees have the same document if and only if the same is left of
  them.

Values are written as texts, and `Bag.asTexts` keeps just these, since 1 and the text `1` are
written alike.  Everything else is told apart by the names of the members.
-/

set_option autoImplicit false

namespace Criteria

/-! ## What a document shows -/

/-- The range with the texts of its bounds as bounds. -/
def Range.asTexts (write : Value → String) (r : Range) : Range :=
  { r with lower := .text (write r.lower), upper := .text (write r.upper) }

/-- The comparison with the text of its value as value. -/
def Comparison.asTexts (write : Value → String) (c : Comparison) : Comparison :=
  { c with value := .text (write c.value) }

/-- The bag with the texts of its values as values. -/
def Bag.asTexts (write : Value → String) (b : Bag) : Bag where
  simple := b.simple.map fun v => .text (write v)
  excluded := b.excluded.map fun v => .text (write v)
  ranges := b.ranges.map (Range.asTexts write)
  excludedRanges := b.excludedRanges.map (Range.asTexts write)
  comparisons := b.comparisons.map (Comparison.asTexts write)
  patterns := b.patterns

/-- The map with the values that `f` makes of names and values. -/
def NameMap.map {α β : Type} (f : String → α → β) (m : NameMap α) : NameMap β where
  entries := m.entries.map fun e => (e.1, f e.1 e.2)
  nodup := by
    rw [List.map_map]
    exact m.nodup

namespace Group

/-- The fields that are written, with the texts of their values. -/
def prunedFields (s : FieldSet) (fields : NameMap Bag) : NameMap Bag :=
  (fields.filter s.exports).map fun name bag => bag.asTexts (s.write name)

mutual

/-- What a document shows of a tree.  Without fields a group is shown as an AND group. -/
def pruned (s : FieldSet) : Group → Group
  | ⟨logical, fields, groups⟩ =>
    let fields := prunedFields s fields
    ⟨if fields.entries.isEmpty then .and else logical, fields, listPruned s groups⟩

/-- The groups that are shown. -/
def listPruned (s : FieldSet) : List Group → List Group
  | [] => []
  | g :: gs => if (pruned s g).isEmpty then listPruned s gs else pruned s g :: listPruned s gs

end

end Group

/-! ## Lists -/

/-- Lists that two functions take to the same lists, if the functions tell apart the same items. -/
theorem map_eq_map_iff {α β γ : Type} {f : α → β} {h : α → γ} {xs ys : List α}
    (hfh : ∀ x ∈ xs, ∀ y ∈ ys, (f x = f y ↔ h x = h y)) :
    xs.map f = ys.map f ↔ xs.map h = ys.map h := by
  induction xs generalizing ys with
  | nil => cases ys <;> simp
  | cons x xs ih =>
    cases ys with
    | nil => simp
    | cons y ys =>
      have hrest : xs.map f = ys.map f ↔ xs.map h = ys.map h :=
        ih fun x hx y hy => hfh x (List.mem_cons_of_mem _ hx) y (List.mem_cons_of_mem _ hy)
      simp only [List.map_cons, List.cons.injEq, hfh x List.mem_cons_self y List.mem_cons_self,
        hrest]

/-! ## Members that may be left out

The members of an object stand in a fixed order and each of them may be missing.  If the names are
different, the first one is there or not, and is told from those behind it. -/

namespace Json

variable {name name' : String} {items items' : List Json} {ms ms' : List (String × Json)}

/-- A list of items is told by its member, since an empty list has none. -/
theorem listMember_inj : listMember name items = listMember name items' ↔ items = items' := by
  cases items <;> cases items' <;> simp [listMember]

/-- A member has its own name. -/
theorem not_mem_listMember (h : name ≠ name') : name ∉ (listMember name' items).map Prod.fst := by
  cases items <;> simp [listMember, h]

/-- A member that may be left out is told from the members behind it by its name. -/
theorem listMember_append_inj (h : name ∉ ms.map Prod.fst) (h' : name ∉ ms'.map Prod.fst) :
    listMember name items ++ ms = listMember name items' ++ ms' ↔ items = items' ∧ ms = ms' := by
  cases items with
  | nil =>
    cases items' with
    | nil => simp [listMember]
    | cons j js =>
      have hne : ms ≠ (name, .array (j :: js)) :: ms' := fun he => h (by simp [he])
      simp [listMember, hne]
  | cons j js =>
    cases items' with
    | nil =>
      have hne : (name, .array (j :: js)) :: ms ≠ ms' := fun he => h' (by simp [← he])
      simp [listMember, hne]
    | cons j' js' => simp [listMember]

end Json

/-! ## Fields

One lemma for each kind of entry: what is written of it tells it, with its values as texts. -/

section Entry

variable {write : Value → String}

theorem Operator.symbol_inj {o o' : Operator} : o.symbol = o'.symbol ↔ o = o' := by
  constructor
  · intro h
    have := congrArg Operator.ofSymbol? h
    simpa [Operator.ofSymbol?_symbol] using this
  · rintro rfl
    rfl

theorem Matcher.name_inj {m m' : Matcher} : m.name = m'.name ↔ m = m' := by
  obtain ⟨p, n⟩ := m
  obtain ⟨p', n'⟩ := m'
  cases p <;> cases n <;> cases p' <;> cases n' <;> decide

/-- A range tells its bounds, and whether they belong to it. -/
theorem Range.document_inj {r r' : Range} :
    r.document write = r'.document write ↔ r.asTexts write = r'.asTexts write := by
  obtain ⟨l, u, li, ui⟩ := r
  obtain ⟨l', u', li', ui'⟩ := r'
  cases li <;> cases ui <;> cases li' <;> cases ui' <;> simp [document, asTexts]

/-- A comparison tells its operator and its value. -/
theorem Comparison.document_inj {c c' : Comparison} :
    c.document write = c'.document write ↔ c.asTexts write = c'.asTexts write := by
  simp [document, asTexts, Operator.symbol_inj]

/-- A pattern tells everything, its text being one already. -/
theorem Pattern.document_inj {p p' : Pattern} : p.document = p'.document ↔ p = p' := by
  obtain ⟨m, t, i⟩ := p
  obtain ⟨m', t', i'⟩ := p'
  simp [document, Matcher.name_inj]

/-- What is written of a field can be read off its document. -/
theorem Bag.document_inj {b b' : Bag} :
    b.document write = b'.document write ↔ b.asTexts write = b'.asTexts write := by
  have hvalues : ∀ {vs vs' : List Value},
      vs.map (fun v => Json.text (write v)) = vs'.map (fun v => Json.text (write v)) ↔
        vs.map (fun v => Value.text (write v)) = vs'.map fun v => Value.text (write v) :=
    map_eq_map_iff fun v _ v' _ => by simp
  have hranges : ∀ {rs rs' : List Range},
      rs.map (Range.document write) = rs'.map (Range.document write) ↔
        rs.map (Range.asTexts write) = rs'.map (Range.asTexts write) :=
    map_eq_map_iff fun _ _ _ _ => Range.document_inj
  have hcomparisons : ∀ {cs cs' : List Comparison},
      cs.map (Comparison.document write) = cs'.map (Comparison.document write) ↔
        cs.map (Comparison.asTexts write) = cs'.map (Comparison.asTexts write) :=
    map_eq_map_iff fun _ _ _ _ => Comparison.document_inj
  have hpatterns : ∀ {ps ps' : List Pattern},
      ps.map Pattern.document = ps'.map Pattern.document ↔ ps = ps' := fun {ps ps'} => by
    have h : ps.map Pattern.document = ps'.map Pattern.document ↔ ps.map id = ps'.map id :=
      map_eq_map_iff fun _ _ _ _ => Pattern.document_inj
    rwa [List.map_id, List.map_id] at h
  simp only [document, asTexts, Json.object.injEq, List.append_assoc, Bag.mk.injEq,
    ← Array.toList_inj, Array.toList_map, ← hvalues, ← hranges, ← hcomparisons, ← hpatterns]
  rw [Json.listMember_append_inj, Json.listMember_append_inj, Json.listMember_append_inj,
    Json.listMember_append_inj, Json.listMember_append_inj, Json.listMember_inj]
  all_goals simp [Json.not_mem_listMember]

end Entry

/-! ## Groups

The two ways of leaving out are compared first: a pruned tree is empty if nothing is written of it.
Then the induction is on the tree, for groups and for lists of groups at once. -/

namespace Group

variable {s : FieldSet}

/-- Fields are left where fields are written. -/
theorem isEmpty_prunedFields (s : FieldSet) (fields : NameMap Bag) :
    (prunedFields s fields).entries.isEmpty = (fieldMembers s fields).isEmpty := by
  rw [prunedFields, NameMap.map, NameMap.filter, fieldMembers, List.isEmpty_map, List.isEmpty_map]

/-- What is written of fields tells what is left of them. -/
theorem fieldMembers_inj {fields fields' : NameMap Bag} :
    fieldMembers s fields = fieldMembers s fields' ↔
      prunedFields s fields = prunedFields s fields' := by
  have hentries : prunedFields s fields = prunedFields s fields' ↔
      (prunedFields s fields).entries = (prunedFields s fields').entries := by
    rw [NameMap.mk.injEq]
  rw [hentries]
  refine map_eq_map_iff fun e _ e' _ => ?_
  rw [Prod.mk.injEq, Prod.mk.injEq]
  refine and_congr_right fun hname => ?_
  rw [hname]
  exact Bag.document_inj

/-- OR is written and AND is not. -/
theorem logicalMember_inj {l l' : Logical} :
    (if l == .or then [("logical-case", Json.text "OR")] else []) =
        (if l' == .or then [("logical-case", Json.text "OR")] else []) ↔ l = l' := by
  cases l <;> cases l' <;> simp

theorem not_mem_logicalMember (l : Logical) :
    "groups" ∉ (if l == .or then [("logical-case", Json.text "OR")] else []).map Prod.fst := by
  cases l <;> simp

/-- The members of a group tell what is written in it, part by part. -/
theorem members_mk_inj {l l' : Logical} {fields fields' : NameMap Bag} {gs gs' : List Group} :
    members s ⟨l, fields, gs⟩ = members s ⟨l', fields', gs'⟩ ↔
      (if (fieldMembers s fields).isEmpty then .and else l) =
          (if (fieldMembers s fields').isEmpty then .and else l') ∧
        fieldMembers s fields = fieldMembers s fields' ∧ documents s gs = documents s gs' := by
  rw [members, members]
  generalize fieldMembers s fields = ms
  generalize fieldMembers s fields' = ms'
  generalize documents s gs = ds
  generalize documents s gs' = ds'
  -- the logical is written only beside fields, so the cases are those in which there are some
  cases ms with
  | nil =>
    cases ms' with
    | nil => simp [Json.listMember_inj]
    | cons m' ms' => cases ds <;> simp [Json.listMember]
  | cons m ms =>
    cases ms' with
    | nil => cases ds' <;> simp [Json.listMember]
    | cons m' ms' =>
      simp only [List.isEmpty_cons, Bool.not_false, Bool.true_and, Bool.false_eq_true, if_false,
        List.cons_append, List.nil_append, List.cons.injEq, Prod.mk.injEq, Json.object.injEq,
        true_and]
      rw [Json.listMember_append_inj (not_mem_logicalMember l) (not_mem_logicalMember l'),
        logicalMember_inj, ← and_assoc, and_comm]

/-- Nothing is written of a group without fields and groups that are written, whatever its
logical. -/
theorem isEmpty_members_mk (s : FieldSet) (l : Logical) (fields : NameMap Bag)
    (gs : List Group) :
    (members s ⟨l, fields, gs⟩).isEmpty =
      ((fieldMembers s fields).isEmpty && (documents s gs).isEmpty) := by
  rw [members]
  cases fieldMembers s fields <;> cases documents s gs <;> simp [Json.listMember]

mutual

/-- A group of which nothing is shown is one without members. -/
theorem isEmpty_pruned : (g : Group) → (pruned s g).isEmpty = (members s g).isEmpty
  | ⟨l, fields, gs⟩ => by
    rw [pruned, isEmpty, isEmpty_prunedFields, isEmpty_listPruned gs, isEmpty_members_mk]

theorem isEmpty_listPruned : (gs : List Group) →
    (listPruned s gs).isEmpty = (documents s gs).isEmpty
  | [] => rfl
  | g :: gs => by
    rw [listPruned, documents, isEmpty_pruned g]
    split
    · exact isEmpty_listPruned gs
    · rfl

end

/-- Of a list of groups those are left of which something is written. -/
theorem listPruned_eq (gs : List Group) :
    listPruned s gs = (gs.filter fun g => !(members s g).isEmpty).map (pruned s) := by
  induction gs with
  | nil => rfl
  | cons g gs ih =>
    rw [listPruned, isEmpty_pruned, ih]
    cases hms : (members s g).isEmpty <;> simp [hms]

/-- Of a list of groups those are written of which something is written. -/
theorem documents_eq (gs : List Group) :
    documents s gs =
      (gs.filter fun g => !(members s g).isEmpty).map fun g => .object (members s g) := by
  induction gs with
  | nil => rfl
  | cons g gs ih =>
    rw [documents, ih]
    cases hms : (members s g).isEmpty <;> simp [hms]

/-- What is written of a tree can be read off its members. -/
theorem members_inj : (g g' : Group) → (members s g = members s g' ↔ pruned s g = pruned s g')
  | ⟨l, fields, gs⟩, ⟨l', fields', gs'⟩ => by
    have hgroups : documents s gs = documents s gs' ↔ listPruned s gs = listPruned s gs' := by
      rw [documents_eq, documents_eq, listPruned_eq, listPruned_eq]
      refine map_eq_map_iff fun g hg g' hg' => ?_
      have hmem := (List.mem_filter.1 hg).1
      rw [Json.object.injEq, members_inj g g']
    rw [members_mk_inj, hgroups, fieldMembers_inj, pruned, pruned, Group.mk.injEq,
      isEmpty_prunedFields, isEmpty_prunedFields]

/-- No field is written if all are hidden or empty. -/
theorem fieldMembers_eq_nil_iff {fields : NameMap Bag} :
    fieldMembers s fields = [] ↔
      ∀ e ∈ fields.entries, s.isHidden e.1 = true ∨ e.2.isEmpty = true := by
  rw [fieldMembers, List.map_eq_nil_iff, List.filter_eq_nil_iff]
  refine forall₂_congr fun e _ => ?_
  rw [FieldSet.exports, Bool.not_eq_true, Bool.and_eq_false_iff, Bool.not_eq_false',
    Bool.not_eq_false']

/-- No group is written if nothing is written of any of them. -/
theorem documents_eq_nil_iff {gs : List Group} :
    documents s gs = [] ↔ ∀ g ∈ gs, members s g = [] := by
  rw [documents_eq, List.map_eq_nil_iff, List.filter_eq_nil_iff]
  simp

/-- There are no members if and only if nothing is written in any group of the tree. -/
theorem members_eq_nil_iff {depth : Nat} : (g : Group) →
    (members s g = [] ↔ g.Everywhere (fun _ g => ∀ e ∈ g.fields.entries,
      s.isHidden e.1 = true ∨ e.2.isEmpty = true) depth)
  | ⟨l, fields, gs⟩ => by
    have hgroups : (∀ g ∈ gs, members s g = []) ↔ ∀ g ∈ gs, Everywhere (fun _ g =>
        ∀ e ∈ g.fields.entries, s.isHidden e.1 = true ∨ e.2.isEmpty = true) (depth + 1) g :=
      forall₂_congr fun g _ => members_eq_nil_iff g
    rw [everywhere_iff, ← List.isEmpty_iff, isEmpty_members_mk, Bool.and_eq_true,
      List.isEmpty_iff, List.isEmpty_iff, fieldMembers_eq_nil_iff, documents_eq_nil_iff, hgroups]

end Group

namespace Condition

/-- **A document determines what is written of a tree, and is determined by it.**  Two trees have
the same document if and only if the same is left of them when everything is left out that is not
written.  The document is without members if and only if nothing is written in any of the groups. -/
theorem document_eq_iff (fields : FieldSet) (t t' : Group) :
    (document ⟨fields, t⟩ = document ⟨fields, t'⟩ ↔ t.pruned fields = t'.pruned fields) ∧
      (document ⟨fields, t⟩ = .object [] ↔ t.Everywhere (fun _ g => ∀ e ∈ g.fields.entries,
        fields.isHidden e.1 = true ∨ e.2.isEmpty = true) 0) := by
  simp only [document, Group.document, Json.object.injEq]
  exact ⟨t.members_inj t', t.members_eq_nil_iff⟩

end Condition
end Criteria
