import Criteria.Proofs.Assembly.Operation
import Criteria.Proofs.Writing.Group

/-!
# Building a tree operation by operation

A group is built by a block of operations for each field and one for each subgroup.  The blocks may
come in any order in which the fields keep theirs and the subgroups theirs, and the entries of a
field in any order in which those of each kind keep theirs.

A group under construction is at the top of a stack, and becomes part of its parent only when it is
left.  So building a subgroup in the middle of a block of the parent must leave the parent as it is.
The induction is on the script, for any group that has been built so far and any groups around it;
what the script adds is behind what was there, and nothing else has changed.

## What is here

* `Criterion.Kind`, `Bag.Lists` — the orders in which the entries of a bag may be added.
* `Bag.foldl_add_of_lists` — adding them in such an order gives the bag.
* `Assembly.Script` — the operations that build the fields and subgroups of a group.
* `Assembly.Script.perform` — what they do to a group under construction.
* `Assembly.exists_script`, `Assembly.perform_script` — every tree has such operations, and building
  it with any of them gives that tree.
-/

set_option autoImplicit false

namespace Criteria

/-! ## The entries of a field

A bag has a list for each kind of entry, so any order in which the entries of each kind keep theirs
fills it in the same way. -/

/-- The six kinds of entries. -/
inductive Criterion.Kind where
  | simple
  | excluded
  | range
  | excludedRange
  | comparison
  | pattern
deriving DecidableEq

/-- The kind of an entry. -/
def Criterion.kind : Criterion → Kind
  | simple _ => .simple
  | excluded _ => .excluded
  | range _ => .range
  | excludedRange _ => .excludedRange
  | comparison _ => .comparison
  | pattern _ => .pattern

namespace Bag

variable {b b' : Bag} {cs : List Criterion}

/-- The entries of one kind, in their order. -/
def ofKind (b : Bag) : Criterion.Kind → List Criterion
  | .simple => b.simple.toList.map .simple
  | .excluded => b.excluded.toList.map .excluded
  | .range => b.ranges.toList.map .range
  | .excludedRange => b.excludedRanges.toList.map .excludedRange
  | .comparison => b.comparisons.toList.map .comparison
  | .pattern => b.patterns.toList.map .pattern

/-- The list has the entries of the bag, those of each kind in their order. -/
def Lists (b : Bag) (cs : List Criterion) : Prop :=
  ∀ k, cs.filter (·.kind = k) = b.ofKind k

/-- A bag is told by its entries of each kind. -/
theorem ext_ofKind (h : ∀ k, b.ofKind k = b'.ofKind k) : b = b' := by
  have hlist : b.toList = b'.toList := by
    have hsplit : ∀ b : Bag, b.toList = b.ofKind .simple ++ b.ofKind .excluded ++ b.ofKind .range ++
        b.ofKind .excludedRange ++ b.ofKind .comparison ++ b.ofKind .pattern := fun _ => rfl
    simp only [hsplit, h]
  rw [← foldl_toList b, hlist, foldl_toList]

/-- An entry goes behind those of its kind. -/
theorem ofKind_add (b : Bag) (c : Criterion) (k : Criterion.Kind) :
    (b.add c).ofKind k = b.ofKind k ++ [c].filter (·.kind = k) := by
  obtain ⟨s, e, r, er, cs, p⟩ := b
  cases c <;> cases k <;> simp [add, ofKind, Criterion.kind]

/-- Entries that are added come behind those of their kind. -/
theorem ofKind_foldl_add (cs : List Criterion) (b : Bag) (k : Criterion.Kind) :
    (cs.foldl add b).ofKind k = b.ofKind k ++ cs.filter (·.kind = k) := by
  induction cs generalizing b with
  | nil => simp
  | cons c cs ih =>
    rw [List.foldl_cons, ih, ofKind_add, List.append_assoc, ← List.filter_append,
      List.singleton_append]

/-- Adding entries to an empty bag puts them in such an order. -/
theorem lists_foldl_add (cs : List Criterion) : (cs.foldl add {}).Lists cs := fun k => by
  rw [ofKind_foldl_add]
  cases k <;> rfl

/-- Adding the entries of a bag in such an order gives the bag. -/
theorem foldl_add_of_lists (h : b.Lists cs) : cs.foldl add {} = b :=
  ext_ofKind fun k => (lists_foldl_add cs k).symm.trans (h k)

/-- The entries of a bag, kind after kind, are in an order that fills the bag. -/
theorem lists_toList (b : Bag) : b.Lists b.toList := by
  have h := lists_foldl_add b.toList
  rwa [foldl_toList] at h

end Bag

/-! ## The groups of a tree

A script has a block for each field and each subgroup, and the block of a subgroup has a script for
the subgroup inside. -/

namespace Assembly

/-- The operations that build the fields and the subgroups of a group, block by block. -/
inductive Script : List (String × Bag) → List Group → List Operation → Prop
  | done : Script [] [] []
  | field {name : String} {bag : Bag} {entries : List Criterion} {fields : List (String × Bag)}
      {groups : List Group} {ops : List Operation} (lists : bag.Lists entries)
      (rest : Script fields groups ops) :
      Script ((name, bag) :: fields) groups
        (.openField name :: (entries.map .add ++ .closeField :: ops))
  | group {sub : Group} {fields : List (String × Bag)} {groups : List Group}
      {inside ops : List Operation} (body : Script sub.fields.entries sub.groups inside)
      (rest : Script fields groups ops) :
      Script fields (sub :: groups)
        (.enterGroup sub.logical :: (inside ++ .leaveGroup :: ops))

variable {a b : Assembly} {g : Group} {outer : List Group} {name : String} {bag : Bag}

/-- The first operation is done, and then the others. -/
theorem perform_cons (op : Operation) (h : op.edit a = .ok () b) (ops : List Operation) :
    perform (op :: ops) a = perform ops b :=
  bind_of_ok h

/-- Some operations are done, and then the others. -/
theorem perform_append {ops : List Operation} (h : perform ops a = .ok () b)
    (more : List Operation) : perform (ops ++ more) a = perform more b := by
  induction ops generalizing a with
  | nil =>
    cases h
    rfl
  | cons op ops ih =>
    obtain ⟨_, c, hc, h⟩ := ok_of_bind h
    exact (perform_cons op hc _).trans (ih h)

/-- Entries are added to the open field. -/
theorem Shows.perform_add (h : Shows a g outer (some (name, bag))) (entries : List Criterion) :
    ∃ b, perform (entries.map .add) a = .ok () b ∧
      Shows b g outer (some (name, entries.foldl Bag.add bag)) := by
  induction entries generalizing a bag with
  | nil => exact ⟨a, rfl, h⟩
  | cons c entries ih =>
    obtain ⟨b, hb, hadd⟩ := h.add c
    obtain ⟨d, hd, hentries⟩ := ih hadd
    exact ⟨d, (perform_cons (.add c) hb _).trans hd, hentries⟩

/-- **The operations add the fields and the subgroups to a group under construction**, behind those
that it has, and leave the groups around it as they are. -/
theorem Script.perform {fields : List (String × Bag)} {groups : List Group}
    {ops : List Operation} (h : Script fields groups ops) :
    ∀ {a : Assembly} {g : Group} {outer : List Group}, Shows a g outer none →
      (g.fields.names ++ fields.map Prod.fst).Nodup →
      ∃ b g', Assembly.perform ops a = .ok () b ∧ Shows b g' outer none ∧ g'.logical = g.logical ∧
        g'.fields.entries = g.fields.entries ++ fields ∧ g'.groups = g.groups ++ groups := by
  induction h with
  | done =>
    intro a g outer ha _
    exact ⟨a, g, rfl, ha, rfl, by simp, by simp⟩
  | @field name bag entries fields groups ops lists _ ih =>
    intro a g outer ha hnames
    have hnew : g.fields.contains name = false := by
      rw [Bool.eq_false_iff]
      intro hc
      exact (List.nodup_append.1 hnames).2.2 name (NameMap.contains_iff.1 hc) name (by simp) rfl
    obtain ⟨b₁, h₁, hopened⟩ := ha.openField hnew
    obtain ⟨b₂, h₂, hadded⟩ := hopened.perform_add entries
    obtain ⟨b₃, h₃, hclosed⟩ := hadded.closeField
    rw [Bag.foldl_add_of_lists lists] at hclosed
    have hentries := Group.entries_addField hnew bag
    obtain ⟨b, g', hb, hshows, hl, hf, hg⟩ := ih hclosed (by
      rw [NameMap.names, hentries, List.map_append, List.append_assoc]
      exact hnames)
    refine ⟨b, g', ?_, hshows, hl, ?_, hg⟩
    · rw [perform_cons (.openField name) h₁, perform_append h₂, perform_cons .closeField h₃, hb]
    · rw [hf, hentries, List.append_assoc, List.singleton_append]
  | @group sub fields groups inside ops _ _ ihbody ih =>
    intro a g outer ha hnames
    obtain ⟨b₁, h₁, hentered⟩ := ha.enterGroup sub.logical
    -- the subgroup starts empty, so its names may be those of the group around it
    obtain ⟨b₂, built, h₂, hbuilt, hl, hf, hg⟩ := ihbody hentered sub.fields.nodup
    have heq : built = sub := Group.eq_of_entries hl hf hg
    rw [heq] at hbuilt
    obtain ⟨b₃, h₃, hleft⟩ := hbuilt.leaveGroup
    obtain ⟨b, g', hb, hshows, hl, hf, hg⟩ := ih hleft hnames
    refine ⟨b, g', ?_, hshows, hl, hf, ?_⟩
    · rw [perform_cons (.enterGroup sub.logical) h₁, perform_append h₂,
        perform_cons .leaveGroup h₃, hb]
    · rw [hg, Group.addGroup, List.append_assoc, List.singleton_append]

/-- Fields and subgroups have a script if each subgroup has one: the fields come first, then the
subgroups. -/
theorem exists_script_of_groups (fields : List (String × Bag)) {groups : List Group}
    (h : ∀ sub ∈ groups, ∃ ops, Script sub.fields.entries sub.groups ops) :
    ∃ ops, Script fields groups ops := by
  induction fields with
  | nil =>
    induction groups with
    | nil => exact ⟨[], .done⟩
    | cons sub groups ih =>
      obtain ⟨inside, hbody⟩ := h sub (by simp)
      obtain ⟨ops, hrest⟩ := ih fun other hother => h other (by simp [hother])
      exact ⟨_, .group hbody hrest⟩
  | cons e fields ih =>
    obtain ⟨ops, hrest⟩ := ih
    exact ⟨_, .field (Bag.lists_toList e.2) hrest⟩

/-- Every tree has operations that build it. -/
theorem exists_script : (t : Group) → ∃ ops, Script t.fields.entries t.groups ops
  | ⟨_, fields, groups⟩ => exists_script_of_groups fields.entries fun sub _ => exists_script sub

/-- **Every tree can be built, and by any operations in a legal order.**  There are operations that
build the fields and the subgroups of the tree block by block; all of them succeed, one after the
other, on an empty assembly whose root has the logical of the tree, and then no group is open and
the finished tree is this one. -/
theorem perform_script (t : Group) :
    (∃ ops, Script t.fields.entries t.groups ops) ∧
      ∀ ops, Script t.fields.entries t.groups ops →
        ∃ a, perform ops (setRootLogical t.logical {}) = .ok () a ∧ a.depth = 0 ∧
          a.finish = .ok t := by
  refine ⟨exists_script t, fun ops h => ?_⟩
  have hnew : Shows (setRootLogical t.logical {}) { logical := t.logical } [] none := ⟨rfl, rfl⟩
  obtain ⟨a, built, hperform, ha, hl, hf, hg⟩ := h.perform hnew t.fields.nodup
  obtain rfl : built = t := Group.eq_of_entries hl hf hg
  exact ⟨a, hperform, ha.length, ha.finish⟩

/-- A group with a field whose entries are of two kinds. -/
def innerSample : Group :=
  .addField { logical := .or } "id"
    { simple := #[.integer 2], excluded := #[.integer 1, .integer 3] }

/-- The group with that group inside, and with a field. -/
def outerSample : Group :=
  .addField { groups := [innerSample] } "name" { simple := #[.text "x"] }

/-- Three groups inside each other, the inner ones built before the fields of the outer ones, and an
entry of another kind between the two excluded ones.  The field `name` is opened in two groups. -/
theorem perform_script_sample : ∃ a,
    perform [.enterGroup .and, .enterGroup .or, .openField "id", .add (.excluded (.integer 1)),
        .add (.simple (.integer 2)), .add (.excluded (.integer 3)), .closeField, .leaveGroup,
        .openField "name", .add (.simple (.text "x")), .closeField, .leaveGroup,
        .openField "name", .add (.simple (.text "y")), .closeField]
      (setRootLogical .or {}) = .ok () a ∧ a.depth = 0 ∧
    a.finish = .ok (Group.addField { logical := .or, groups := [outerSample] } "name"
      { simple := #[.text "y"] }) := by
  have hmixed : Bag.Lists { simple := #[.integer 2], excluded := #[.integer 1, .integer 3] }
      [.excluded (.integer 1), .simple (.integer 2), .excluded (.integer 3)] :=
    fun k => by cases k <;> rfl
  have hsingle : ∀ s, Bag.Lists { simple := #[.text s] } [.simple (.text s)] :=
    fun s k => by cases k <;> rfl
  have hinner : Script innerSample.fields.entries innerSample.groups _ := .field hmixed .done
  have houter : Script outerSample.fields.entries outerSample.groups _ :=
    .group hinner (.field (hsingle "x") .done)
  have hroot : Script [("name", _)] [outerSample] _ := .group houter (.field (hsingle "y") .done)
  exact (perform_script (Group.addField { logical := .or, groups := [outerSample] } "name" _)).2 _
    hroot

end Assembly
end Criteria
