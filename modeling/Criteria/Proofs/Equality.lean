import Criteria.Proofs.Tree
import Mathlib.Data.List.Forall2
import Mathlib.Data.List.Nodup
import Mathlib.Data.List.Perm.Subperm

/-!
# Equality of condition trees

Two trees are equal if the one becomes the other one when the fields of its groups are put into
another order.  A decimal that is not a number differs from itself, so this is said of trees without
decimal numbers; among these, equality is an equivalence.

The comparison of two trees is a program of its own, which compares maps by looking up the names of
the one in the other, and lists one by one.  What it decides is said without it by
`Group.Rearranged`: at every depth the fields may be permuted and nothing else may differ.  So it
follows that equality does not look at the order of fields, and that it looks at everything else.

Maps have no name twice.  This is what makes it enough to look up the names of the one map, after
the numbers of entries have been compared.

## What is here

* `EqualsOnly` — a value is equal to itself and to no other one; `EqualsOnly.array` and the like
  derive this for a whole from its parts.
* `NameMap.agrees_iff_perm` — equal maps have the same entries, in any order.
* `Group.Rearranged` — the trees that differ in the order of fields only; it is reflexive, symmetric
  and transitive.
* `Group.beq_iff_rearranged` — these are the trees that are equal.
-/

set_option autoImplicit false

namespace Criteria

/-! ## Values that equal only themselves

What the comparison calls equal is equal, except for decimal numbers, among which are one that
differs from itself and two zeros that are the same.  So the values of a tree are assumed to be
others, and then this goes up from values to bags. -/

/-- What is equal to `a` is `a`. -/
def EqualsOnly {α : Type} [BEq α] (a : α) : Prop :=
  ∀ b, (a == b) = true ↔ a = b

namespace EqualsOnly

variable {α : Type} [BEq α]

/-- Lists whose members equal only themselves. -/
theorem list {as : List α} (h : ∀ a ∈ as, EqualsOnly a) : EqualsOnly as := by
  induction as with
  | nil => exact fun bs => by cases bs <;> simp
  | cons a as ih =>
    rw [List.forall_mem_cons] at h
    intro bs
    cases bs with
    | nil => simp
    | cons b bs => rw [List.cons_beq_cons, Bool.and_eq_true, h.1 b, ih h.2 bs, List.cons.injEq]

/-- Arrays whose members equal only themselves. -/
theorem array {as : Array α} (h : ∀ a ∈ as.toList, EqualsOnly a) : EqualsOnly as := by
  intro bs
  rw [← Array.beq_toList, list h bs.toList, Array.toList_inj]

end EqualsOnly

/-- A value that is no decimal number equals only itself. -/
theorem Value.equalsOnly {v : Value} (h : ∀ x, v ≠ .decimal x) : EqualsOnly v := by
  intro w
  cases v with
  | decimal x => exact absurd rfl (h x)
  | integer n =>
    cases w with
    | integer m =>
      show (n == m) = true ↔ _
      rw [beq_iff_eq, integer.injEq]
    | decimal _ | text _ => exact iff_of_false Bool.noConfusion Value.noConfusion
  | text s =>
    cases w with
    | text t =>
      show (s == t) = true ↔ _
      rw [beq_iff_eq, text.injEq]
    | decimal _ | integer _ => exact iff_of_false Bool.noConfusion Value.noConfusion

theorem Range.equalsOnly {r : Range} (hl : EqualsOnly r.lower) (hu : EqualsOnly r.upper) :
    EqualsOnly r := by
  intro r'
  obtain ⟨lower, upper, li, ui⟩ := r
  obtain ⟨lower', upper', li', ui'⟩ := r'
  show (lower == lower' && (upper == upper' && (li == li' && ui == ui'))) = true ↔ _
  simp only [Bool.and_eq_true, hl lower', hu upper', beq_iff_eq, mk.injEq]

theorem Comparison.equalsOnly {c : Comparison} (h : EqualsOnly c.value) : EqualsOnly c := by
  intro c'
  obtain ⟨operator, value⟩ := c
  obtain ⟨operator', value'⟩ := c'
  show (operator == operator' && value == value') = true ↔ _
  rw [Bool.and_eq_true, beq_iff_eq, h value', mk.injEq]

theorem Pattern.equalsOnly (p : Pattern) : EqualsOnly p := by
  intro p'
  obtain ⟨matcher, text, ignores⟩ := p
  obtain ⟨matcher', text', ignores'⟩ := p'
  show (matcher == matcher' && (text == text' && ignores == ignores')) = true ↔ _
  simp only [Bool.and_eq_true, beq_iff_eq, mk.injEq]

/-- A bag without decimal numbers equals only itself. -/
theorem Bag.equalsOnly {b : Bag}
    (h : ∀ c ∈ b.toList, c.Holds (fun v => ∀ x, v ≠ .decimal x) fun _ => True) :
    EqualsOnly b := by
  simp only [toList, List.forall_mem_append, List.forall_mem_map] at h
  obtain ⟨⟨⟨⟨⟨hs, he⟩, hr⟩, her⟩, hc⟩, -⟩ := h
  have hsimple := EqualsOnly.array fun v hv => Value.equalsOnly (hs v hv)
  have hexcluded := EqualsOnly.array fun v hv => Value.equalsOnly (he v hv)
  have hranges := EqualsOnly.array fun r hm =>
    Range.equalsOnly (Value.equalsOnly (hr r hm).1) (Value.equalsOnly (hr r hm).2)
  have hexcludedRanges := EqualsOnly.array fun r hm =>
    Range.equalsOnly (Value.equalsOnly (her r hm).1) (Value.equalsOnly (her r hm).2)
  have hcomparisons := EqualsOnly.array fun c hm =>
    Comparison.equalsOnly (Value.equalsOnly (hc c hm))
  have hpatterns := @EqualsOnly.array _ _ b.patterns fun p _ => p.equalsOnly
  intro b'
  obtain ⟨s, e, r, er, c, p⟩ := b
  obtain ⟨s', e', r', er', c', p'⟩ := b'
  show (s == s' && (e == e' && (r == r' && (er == er' && (c == c' && p == p'))))) = true ↔ _
  simp only [Bool.and_eq_true, hsimple s', hexcluded e', hranges r', hexcludedRanges er',
    hcomparisons c', hpatterns p', mk.injEq]

/-! ## Maps

Each entry of the one map is found in the other one, and both have the same number of entries; since
no name occurs twice, the entries are the same up to their order. -/

namespace NameMap

variable {α : Type} {a b : NameMap α}

/-- Maps are equal just if they have the same entries, whatever the order of these. -/
theorem agrees_iff_perm [BEq α] (h : ∀ e ∈ a.entries, EqualsOnly e.2) :
    a.agrees b = true ↔ a.entries.Perm b.entries := by
  have hentries : a.agrees b = true ↔
      a.entries.length = b.entries.length ∧ ∀ e ∈ a.entries, e ∈ b.entries := by
    rw [agrees, Bool.and_eq_true, beq_iff_eq, List.all_eq_true]
    refine and_congr_right' (forall₂_congr fun e he => ?_)
    obtain ⟨name, value⟩ := e
    rw [← find?_eq_some_iff]
    dsimp only
    split
    · next value' hvalue =>
      rw [h _ he value', hvalue, Option.some_inj]
      exact eq_comm
    · next hnone =>
      rw [hnone]
      exact iff_of_false Bool.noConfusion fun h => nomatch h
  rw [hentries]
  constructor
  · rintro ⟨hlength, hsubset⟩
    -- all entries of the one map are among those of the other one, which has no more of them
    have hnodup : a.entries.Nodup := List.Nodup.of_map _ a.nodup
    exact (List.subperm_of_subset hnodup hsubset).perm_of_length_le (Nat.le_of_eq hlength.symm)
  · exact fun hperm => ⟨hperm.length_eq, fun e he => hperm.subset he⟩

end NameMap

/-! ## Trees

The relation is shown to be an equivalence along its derivations, and to be what the comparison
decides along the tree. -/

namespace Group

/-- The one tree becomes the other one when the fields of its groups are put into another order. -/
inductive Rearranged : Group → Group → Prop
  | mk {logical : Logical} {fields fields' : NameMap Bag} {groups groups' : List Group}
      (order : fields.entries.Perm fields'.entries)
      (inside : List.Forall₂ Rearranged groups groups') :
      Rearranged ⟨logical, fields, groups⟩ ⟨logical, fields', groups'⟩

/-- There is no decimal number among the entries of the group itself. -/
def WithoutDecimals (g : Group) : Prop :=
  ∀ e ∈ g.fields.entries, ∀ c ∈ e.2.toList, c.Holds (fun v => ∀ x, v ≠ .decimal x) fun _ => True

namespace Rearranged

/-- A tree is a rearrangement of itself. -/
theorem refl : ∀ a : Group, Rearranged a a
  | ⟨_, _, groups⟩ => .mk (.refl _) (inside groups)
where
  inside : (groups : List Group) → List.Forall₂ Rearranged groups groups
    | [] => .nil
    | g :: gs => .cons (refl g) (inside gs)

theorem symm : ∀ {a b : Group}, Rearranged a b → Rearranged b a
  | _, _, .mk order groups => .mk order.symm (inside groups)
where
  inside {gs gs' : List Group} :
      List.Forall₂ Rearranged gs gs' → List.Forall₂ Rearranged gs' gs
    | .nil => .nil
    | .cons h hs => .cons h.symm (inside hs)

theorem trans : ∀ {a b c : Group}, Rearranged a b → Rearranged b c → Rearranged a c
  | _, _, _, .mk order groups, .mk order' groups' =>
    .mk (order.trans order') (inside groups groups')
where
  inside {gs gs' gs'' : List Group} : List.Forall₂ Rearranged gs gs' →
      List.Forall₂ Rearranged gs' gs'' → List.Forall₂ Rearranged gs gs''
    | .nil, .nil => .nil
    | .cons h hs, .cons h' hs' => .cons (h.trans h') (inside hs hs')

/-- In another order there are the same entries. -/
theorem withoutDecimals : ∀ {a b : Group}, Rearranged a b → ∀ {depth : Nat},
    a.Everywhere (fun _ g => g.WithoutDecimals) depth →
      b.Everywhere (fun _ g => g.WithoutDecimals) depth
  | _, _, .mk order groups, _, .mk here below =>
    .mk (fun e he => here e (order.symm.subset he)) (inside groups below)
where
  inside {gs gs' : List Group} {depth : Nat} : List.Forall₂ Rearranged gs gs' →
      (∀ g ∈ gs, g.Everywhere (fun _ g => g.WithoutDecimals) depth) →
      ∀ g ∈ gs', g.Everywhere (fun _ g => g.WithoutDecimals) depth
    | .nil, _ => by simp
    | .cons h hs, hgs => by
      rw [List.forall_mem_cons] at hgs ⊢
      exact ⟨h.withoutDecimals hgs.1, inside hs hgs.2⟩

end Rearranged

variable {a : Group} {depth : Nat}

/-- Two groups are rearrangements of each other if they combine their members alike, their fields
are permuted, and their subgroups are rearrangements one by one. -/
theorem rearranged_mk_iff {logical logical' : Logical} {fields fields' : NameMap Bag}
    {groups groups' : List Group} :
    Rearranged ⟨logical, fields, groups⟩ ⟨logical', fields', groups'⟩ ↔ logical = logical' ∧
      fields.entries.Perm fields'.entries ∧ List.Forall₂ Rearranged groups groups' := by
  constructor
  · rintro ⟨order, inside⟩
    exact ⟨rfl, order, inside⟩
  · rintro ⟨rfl, order, inside⟩
    exact .mk order inside

/-- Lists of groups are compared one by one. -/
theorem listAgrees_iff {gs gs' : List Group}
    (h : ∀ g ∈ gs, ∀ g', agrees g g' = true ↔ Rearranged g g') :
    listAgrees gs gs' = true ↔ List.Forall₂ Rearranged gs gs' := by
  induction gs generalizing gs' with
  | nil => cases gs' <;> simp [listAgrees]
  | cons g gs ih =>
    rw [List.forall_mem_cons] at h
    cases gs' with
    | nil => simp [listAgrees]
    | cons g' gs' =>
      rw [listAgrees, Bool.and_eq_true, h.1 g', ih h.2, List.forall₂_cons]

/-- **Comparing decides whether a tree is a rearrangement**, from any depth on. -/
theorem agrees_iff_rearranged (h : a.Everywhere (fun _ g => g.WithoutDecimals) depth) (b : Group) :
    agrees a b = true ↔ Rearranged a b := by
  induction h generalizing b with
  | @mk _ g here _ ih =>
    obtain ⟨logical, fields, groups⟩ := g
    obtain ⟨logical', fields', groups'⟩ := b
    have hfields := NameMap.agrees_iff_perm (b := fields') fun e he => Bag.equalsOnly (here e he)
    rw [agrees, Bool.and_eq_true, Bool.and_eq_true, decide_eq_true_eq, hfields, listAgrees_iff ih,
      and_assoc, rearranged_mk_iff]

/-- **Trees are equal up to the order of their fields.**  Take a tree without decimal numbers.  The
trees that are equal to it are those that it becomes when the fields are put into another order,
within any of its groups, while all else stays as it is.  So equality is reflexive, symmetric and
transitive.  Conditions about sets of fields with the same name are equal just if their trees
are. -/
theorem beq_iff_rearranged (h : a.Everywhere (fun _ g => g.WithoutDecimals) 0) :
    (∀ b, (a == b) = true ↔ Rearranged a b) ∧ (a == a) = true ∧
      (∀ b, (a == b) = true → (b == a) = true) ∧
      (∀ b c, (a == b) = true → (b == c) = true → (a == c) = true) ∧
      ∀ (s s' : FieldSet) (b : Group), s.name = s'.name →
        ((⟨s, a⟩ : Condition) == ⟨s', b⟩) = (a == b) := by
  have hiff : ∀ b, (a == b) = true ↔ Rearranged a b := agrees_iff_rearranged h
  have hiff' : ∀ b, Rearranged a b → ∀ c, (b == c) = true ↔ Rearranged b c := fun b hb =>
    agrees_iff_rearranged (hb.withoutDecimals h)
  refine ⟨hiff, (hiff a).2 (.refl a), fun b hab => ?_, fun b c hab hbc => ?_, fun s s' b hs => ?_⟩
  · have hb := (hiff b).1 hab
    exact (hiff' b hb a).2 hb.symm
  · have hb := (hiff b).1 hab
    exact (hiff c).2 (hb.trans ((hiff' b hb c).1 hbc))
  · show (s.name == s'.name && a == b) = _
    rw [beq_iff_eq.2 hs, Bool.true_and]

/-- A tree with two fields in the root, and in a subgroup the same two in the other order. -/
def orderSample : Group where
  fields := ⟨[("a", { simple := #[.integer 1, .text "1"] }), ("b", { excluded := #[.text ""] })],
    by decide⟩
  groups := [{
    logical := .or
    fields := ⟨[("b", {}), ("a", { comparisons := #[⟨.less, .integer 2⟩] })], by decide⟩ }]

/-- The same tree with all fields in the opposite order. -/
def orderSampleReversed : Group where
  fields := ⟨[("b", { excluded := #[.text ""] }), ("a", { simple := #[.integer 1, .text "1"] })],
    by decide⟩
  groups := [{
    logical := .or
    fields := ⟨[("a", { comparisons := #[⟨.less, .integer 2⟩] }), ("b", {})], by decide⟩ }]

theorem withoutDecimals_orderSample :
    orderSample.Everywhere (fun _ g => g.WithoutDecimals) 0 := by
  refine .mk ?_ fun sub hsub => ?_
  · simp [WithoutDecimals, orderSample, Bag.toList, Criterion.Holds, or_imp, forall_and]
  · cases List.mem_singleton.1 hsub
    refine .mk ?_ fun sub hsub => absurd hsub List.not_mem_nil
    simp [WithoutDecimals, Bag.toList, Criterion.Holds]

theorem beq_iff_rearranged_sample :
    orderSample.Everywhere (fun _ g => g.WithoutDecimals) 0 ∧
      (orderSample == orderSampleReversed) = true ∧ Rearranged orderSample orderSampleReversed :=
  have h := withoutDecimals_orderSample
  ⟨h, by decide, ((beq_iff_rearranged h).1 orderSampleReversed).1 (by decide)⟩

end Group
end Criteria
