import Criteria.Proofs.Grammar.Tree
import Criteria.Proofs.Reading.Items

/-!
# Which texts are read, and as what

This is where reading and the grammar meet.  That a text of the grammar is read as its tree, and
that a text which is read is one of the grammar, is shown item by item in `Criteria.Proofs.Reading`;
what is left to do here is to start and to end it, and to carry over what the grammar knows of its
trees.

Since acceptance is characterised completely, everything that holds of the texts of the grammar
holds of the texts that are read, and no other proof about accepted texts has to look at the reader.

## What is here

* `Condition.parse_eq_ok_iff` — the texts that are read are those of the grammar, and each is read
  as the tree that it denotes.
* `Condition.not_parse_eq_ok_iff_loose` — this does not hold of the grammar that admits spaces in
  front of the lower bound of a range without a bracket: behind a `!` such a range is rejected.
* `Condition.everywhere_accepted_of_parse` — a tree that was read is well-formed for the settings
  and the fields.
* `Condition.parse_eq_ok_iff_within` — smaller limits reject the texts whose trees exceed them, and
  change nothing else.
-/

set_option autoImplicit false

namespace Criteria

open Grammar

variable {settings : Settings} {fields : FieldSet} {text : String} {c : Condition}

/-- A text denotes at most one tree, although the grammar leaves open where a run of white space
ends. -/
theorem Grammar.conditionText_unique {t t' : Group}
    (h : ConditionText false settings fields text.toList t)
    (h' : ConditionText false settings fields text.toList t') : t = t' := by
  have hok := (State.ofSession_start text).2 h
  cases hok.symm.trans ((State.ofSession_start text).2 h')
  rfl

namespace Condition

/-! ## The texts of the grammar

The grammar is not a function: a run of white space between two items may be split between them in
several ways.  The tree does not depend on this, as the reader shows, which has only one result. -/

/-- **A text is read exactly if it denotes a tree**, and then as a condition with this tree about
the fields of the set.  The names of its fields, the texts that they take and the limits are part of
the grammar. -/
theorem parse_eq_ok_iff (settings : Settings) (fields : FieldSet) (text : String) (c : Condition) :
    parse settings fields text = .ok c ↔
      c.fields = fields ∧ ConditionText false settings fields text.toList c.root := by
  obtain ⟨_, root⟩ := c
  constructor
  · intro h
    cases State.fields_of_ofSession h
    exact ⟨rfl, (State.ofSession_start text).1 h⟩
  · rintro ⟨rfl, h⟩
    exact (State.ofSession_start text).2 h

/-- The text `id: ! 1~2` denotes a tree if there may be spaces in front of the range. -/
theorem conditionText_loose : ConditionText true {} .sample "id: ! 1~2".toList
    (Group.addField {} "id" ([.excludedRange ⟨.integer 1, .integer 2, true, true⟩].foldl
      Bag.add {})) := by
  have hname : Text.isFieldName "id" = true := by decide +kernel
  have htoken : FieldToken .sample .byName "id: ! 1~2".toList [' ', '!', ' ', '1', '~', '2']
      { name := "id", converter := .integer } :=
    .name hname rfl (Run.refl ..) (.inl rfl) rfl
  have hlower : LiteralValue { name := "id", converter := .integer } ['1', '~', '2'] ['~', '2']
      (.integer 1) :=
    ⟨"1", .bare (by decide) (forall_mem_of_all (by decide)) rfl, rfl⟩
  have hupper : LiteralValue { name := "id", converter := .integer } ['2'] [] (.integer 2) :=
    ⟨"2", .bare (by decide) (forall_mem_of_all (by decide)) rfl, rfl⟩
  have hrange : RangeText true _ [' ', '1', '~', '2'] [] ⟨.integer 1, .integer 2, true, true⟩ :=
    .mk (.blanks rfl (run_cons rfl _)) hlower (Run.refl ..) (Run.refl ..) hupper .bare
  have hpair := Pair.mk htoken (run_cons rfl _) (.one (.excludedRange hrange)) (Run.refl ..) .atEnd
  exact .and (.pair (Run.refl ..) hpair rfl (by decide) (.done (Run.refl ..)))

/-- With spaces admitted in front of a range, a text can denote a tree and not be read: in
`id: ! 1~2` the value is rejected. -/
theorem not_parse_eq_ok_iff_loose : ¬∀ (settings : Settings) (fields : FieldSet) (text : String)
    (t : Group), settings.naming = .byName → (parse settings fields text = .ok ⟨fields, t⟩ ↔
      ConditionText true settings fields text.toList t) := by
  intro h
  have hok := (h {} .sample "id: ! 1~2" _ rfl).2 conditionText_loose
  have hrejected : (parse {} .sample "id: ! 1~2").isOk = false := by decide +kernel
  rw [hok] at hrejected
  cases hrejected

/-! ## The trees of the texts

Here nothing is read any more.  The trees that the grammar builds are well-formed, so those which
reading builds are. -/

/-- **A tree that was read is well-formed.**  At each depth up to the greatest one, a group has no
more groups and values than the limits allow, and each of its fields is one of the set, occurs once,
and has at least one value; the values are what the field made of texts without line breaks, and
there are none in patterns. -/
theorem everywhere_accepted_of_parse (h : parse settings fields text = .ok c) :
    c.root.Everywhere (Group.Accepted settings fields) 0 := by
  obtain ⟨_, root⟩ := c
  cases State.fields_of_ofSession h
  exact ((State.ofSession_start text).1 h).everywhere_accepted

/-- Whether there is a result can be tested. -/
theorem exists_of_isOk {ε α : Type} {x : Except ε α} (h : x.isOk = true) : ∃ a, x = .ok a := by
  cases x with
  | ok a => exact ⟨a, rfl⟩
  | error e => cases h

/-- With values of all kinds and a group in a group. -/
theorem everywhere_accepted_sample : ∃ c, parse { maxDepth := 2, maxValues := 5, maxGroups := 1 }
      .sample "id: 1, !2, [3~4[, !]5 ~ 6, >=7; *(name: ~i!*\"a b\"; (secret=x))" = .ok c ∧
    c.root.Everywhere
      (Group.Accepted { maxDepth := 2, maxValues := 5, maxGroups := 1 } .sample) 0 := by
  obtain ⟨c, hc⟩ := exists_of_isOk (x := parse { maxDepth := 2, maxValues := 5, maxGroups := 1 }
      .sample "id: 1, !2, [3~4[, !]5 ~ 6, >=7; *(name: ~i!*\"a b\"; (secret=x))")
    (by decide +kernel)
  exact ⟨c, hc, everywhere_accepted_of_parse hc⟩

/-! ## Limits

The limits take part in reading: a value too many ends the field, and a group too deep is skipped.
In the grammar they are side conditions of single items, and so it can be seen that they do not
change what a text denotes. -/

/-- **The limits decide whether a text is read, and never as what.**  Under smaller limits the same
texts are read as under greater ones, except those whose trees exceed the smaller limits. -/
theorem parse_eq_ok_iff_within {small : Settings} (hn : small.naming = settings.naming)
    (hd : small.maxDepth ≤ settings.maxDepth) (hv : small.maxValues ≤ settings.maxValues)
    (hg : small.maxGroups ≤ settings.maxGroups) :
    parse small fields text = .ok c ↔
      parse settings fields text = .ok c ∧ c.root.Within small := by
  obtain ⟨set, root⟩ := c
  constructor
  · intro h
    cases State.fields_of_ofSession h
    obtain ⟨htext, hw⟩ :=
      (conditionText_iff_within hn hd hv hg).1 ((State.ofSession_start text).1 h)
    exact ⟨(State.ofSession_start text).2 htext, hw⟩
  · rintro ⟨h, hw⟩
    cases State.fields_of_ofSession h
    refine (State.ofSession_start text).2 ((conditionText_iff_within hn hd hv hg).2 ⟨?_, hw⟩)
    exact (State.ofSession_start text).1 h

/-- Limits that a text just keeps. -/
theorem parse_within_sample : ∃ c,
    parse { maxDepth := 1, maxValues := 2, maxGroups := 1 } .sample "id: 1, 2; (name: a)" = .ok c ∧
    parse {} .sample "id: 1, 2; (name: a)" = .ok c ∧
    c.root.Within { maxDepth := 1, maxValues := 2, maxGroups := 1 } := by
  obtain ⟨c, hc⟩ := exists_of_isOk (x := parse { maxDepth := 1, maxValues := 2, maxGroups := 1 }
    .sample "id: 1, 2; (name: a)") (by decide +kernel)
  have hwithin := @parse_eq_ok_iff_within {} .sample "id: 1, 2; (name: a)" c
    { maxDepth := 1, maxValues := 2, maxGroups := 1 } rfl (by decide) (by decide) (by decide)
  exact ⟨c, hc, hwithin.1 hc⟩

end Condition
end Criteria
