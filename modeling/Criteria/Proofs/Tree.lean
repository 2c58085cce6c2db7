import Criteria.Condition
import Criteria.Settings

/-!
# Statements about all of a tree

The tree of a condition is a group with groups in it, and most of what is said of a tree is said of
each of its groups, at its depth: that the limits are kept, that the fields are of a given set, that
the values were made by their fields.  `Group.Everywhere` says it of all of them, and carries the
depth along.

## What is here

* `Bag.mem_foldl_add`, `Bag.count_foldl_add` — a bag as the entries that were added to it.
* `Criterion.Holds` — what is said of the values and of the text in an entry.
* `Group.Everywhere` — what is said of a group, and of all groups in it, at their depths.
* `Group.Within` — the tree keeps the limits of the settings.

`Everywhere` is an inductive predicate and not a recursive function, so that it is proved along the
tree that is being built, group by group; `everywhere_iff` and `everywhere_of_forall` lead back to
the subgroups of a given tree.
-/

set_option autoImplicit false

namespace Criteria

/-! ## Entries

A bag keeps its entries by kind.  As a list, it has those that were added, in another order. -/

namespace Bag

/-- Adding an entry adds this one. -/
theorem mem_toList_add {b : Bag} {c x : Criterion} :
    x ∈ (b.add c).toList ↔ x ∈ b.toList ∨ x = c := by
  obtain ⟨s, e, r, er, cs, p⟩ := b
  cases c <;> simp only [add, toList, Array.toList_push, List.map_append, List.mem_append,
    List.map_singleton, List.mem_singleton] <;> grind

/-- The entries of a bag are those that were added to it. -/
theorem mem_foldl_add {x : Criterion} (vs : List Criterion) (b : Bag) :
    x ∈ (vs.foldl add b).toList ↔ x ∈ b.toList ∨ x ∈ vs := by
  induction vs generalizing b with
  | nil => simp
  | cons v vs ih => rw [List.foldl_cons, ih, mem_toList_add, List.mem_cons, or_assoc]

/-- The entries of a bag are as many as were added to it. -/
theorem count_foldl_add (vs : List Criterion) (b : Bag) :
    (vs.foldl add b).count = b.count + vs.length := by
  induction vs generalizing b with
  | nil => rfl
  | cons v vs ih =>
    rw [List.foldl_cons, ih, count_add, List.length_cons]
    omega

end Bag

/-- The values in an entry have the property `p`, and the text of a pattern has the property `q`. -/
def Criterion.Holds (p : Value → Prop) (q : String → Prop) : Criterion → Prop
  | simple v | excluded v => p v
  | range r | excludedRange r => p r.lower ∧ p r.upper
  | comparison c => p c.value
  | pattern r => q r.text

/-! ## Groups -/

namespace Group

/-- A property of the group `g` at the given depth, and of all groups in it at theirs. -/
inductive Everywhere (P : Nat → Group → Prop) : Nat → Group → Prop
  | mk {depth : Nat} {g : Group} (here : P depth g)
      (inside : ∀ sub ∈ g.groups, Everywhere P (depth + 1) sub) : Everywhere P depth g

variable {P Q : Nat → Group → Prop} {depth : Nat} {g : Group}

/-- What every group satisfies may be replaced by something weaker. -/
theorem Everywhere.mono (hPQ : ∀ d g, P d g → Q d g) (h : Everywhere P depth g) :
    Everywhere Q depth g := by
  induction h with
  | mk here _ ih => exact .mk (hPQ _ _ here) ih

/-- What is said of every group twice can be said at once. -/
theorem Everywhere.and (hP : Everywhere P depth g) (hQ : Everywhere Q depth g) :
    Everywhere (fun d g => P d g ∧ Q d g) depth g := by
  induction hP with
  | mk here _ ih =>
    obtain ⟨here', inside'⟩ := hQ
    exact .mk ⟨here, here'⟩ fun sub hsub => ih sub hsub (inside' sub hsub)

/-- A property of all groups is one of the groups in a tree. -/
theorem everywhere_of_forall (h : ∀ d g, P d g) : (depth : Nat) → (g : Group) →
    Everywhere P depth g
  | depth, ⟨_, _, _⟩ => .mk (h _ _) fun sub _ => everywhere_of_forall h (depth + 1) sub

/-- Something holds everywhere in a group if it holds of the group and everywhere in its
subgroups. -/
theorem everywhere_iff : Everywhere P depth g ↔
    P depth g ∧ ∀ sub ∈ g.groups, Everywhere P (depth + 1) sub := by
  constructor
  · rintro ⟨here, inside⟩
    exact ⟨here, inside⟩
  · rintro ⟨here, inside⟩
    exact .mk here inside

/-- The group keeps the limits of the settings. -/
structure KeepsLimits (settings : Settings) (depth : Nat) (g : Group) : Prop where
  depth : depth ≤ settings.maxDepth
  groups : g.groups.length ≤ settings.maxGroups
  values : ∀ e ∈ g.fields.entries, e.2.count ≤ settings.maxValues

/-- All groups of the tree keep the limits of the settings. -/
def Within (settings : Settings) (g : Group) : Prop :=
  Everywhere (KeepsLimits settings) 0 g

/-- The limits have nothing to do with how a condition refers to fields. -/
theorem Within.renamed {settings : Settings} (naming : Naming) (h : g.Within settings) :
    g.Within { settings with naming } :=
  h.mono fun _ _ hg => ⟨hg.depth, hg.groups, hg.values⟩

end Group

/-! ## A set of fields -/

/-- A set with a field of whole numbers, one of texts, and one that is kept out of exports. -/
def FieldSet.sample : FieldSet where
  name := "customers"
  fields := [{ name := "id", converter := .integer },
    { name := "name", label := some "Full name", converter := .text },
    { name := "secret", hidden := true, converter := .text }]
  writable := by decide +kernel
  nodup := by decide

end Criteria
