import Criteria.Proofs.Grammar.Tree
import Criteria.Proofs.Reading.Items

/-!
# A condition in parentheses

The text of a condition is also what stands between the parentheses of a group.  In front of a `)`
the grammar admits whatever it admits at the end of the text; the depths of all groups grow by one,
and the logical of the root is now a matter of the marker in front of the parentheses.

Three things could go wrong in parentheses.  A value could go on into the `)`, or a field not end in
front of it; but a `)` ends whatever the end of the text ends.  A limit could forbid a group that
was allowed one level above, so there has to be one more level.  And the `*` that makes the root an
OR group is no part of the items.

## What is here

* `Items.followed` — items at the end of a text are items in front of a `)`.
* `Items.deeper` — items are items one level below, in a group of either logical.
* `Condition.parse_parenthesized` — a text that is read as an AND group is read in parentheses as
  the only subgroup of the root.

The proof goes through the grammar, production by production, without running the reader.  Each
production relates the text at its start to the text behind it, so appending to both is all there is
to do, up to the end of a field and of the items, where something has to follow that was nothing
before.
-/

set_option autoImplicit false

namespace Criteria

/-- A group with its own logical is the group. -/
theorem Group.with_logical {g : Group} {logical : Logical} (h : g.logical = logical) :
    { g with logical } = g := by
  obtain ⟨l, fields, groups⟩ := g
  cases h
  rfl

namespace Grammar

variable {loose : Bool} {settings wide : Settings} {fields : FieldSet} {field : Field}
  {cs rest : List Char}

/-! ## What may follow

A production does not look behind the text that it ends with.  So anything may be appended, as long
as no production is at the end of the text; one lemma for each. -/

section Append

variable (tail : List Char)

theorem Run.append {p : Char → Bool} (h : Run p cs rest) : Run p (cs ++ tail) (rest ++ tail) := by
  obtain ⟨run, hrun, rfl⟩ := h
  exact ⟨run, hrun, List.append_assoc ..⟩

/-- A text, with quotes or without. -/
theorem LiteralText.append {s : String} (h : LiteralText cs rest s) :
    LiteralText (cs ++ tail) (rest ++ tail) s := by
  cases h with
  | bare nonempty plain text => exact .bare nonempty plain (by rw [text, List.append_assoc])
  | quoted line text => exact .quoted line (by simp [text])

theorem LiteralValue.append {v : Value} (h : LiteralValue field cs rest v) :
    LiteralValue field (cs ++ tail) (rest ++ tail) v := by
  obtain ⟨s, hs, hv⟩ := h
  exact ⟨s, hs.append tail, hv⟩

theorem RangeStart.append {included : Bool} (h : RangeStart loose cs rest included) :
    RangeStart loose (cs ++ tail) (rest ++ tail) included := by
  cases h with
  | included blanks => exact .included (blanks.append tail)
  | excluded blanks => exact .excluded (blanks.append tail)
  | bare => exact .bare
  | blanks allowed blanks => exact .blanks allowed (blanks.append tail)

theorem RangeEnd.append {included : Bool} (h : RangeEnd cs rest included) :
    RangeEnd (cs ++ tail) (rest ++ tail) included := by
  cases h with
  | included blanks => exact .included (blanks.append tail)
  | excluded blanks => exact .excluded (blanks.append tail)
  | bare => exact .bare

/-- A range with its brackets. -/
theorem RangeText.append {r : Range} (h : RangeText loose field cs rest r) :
    RangeText loose field (cs ++ tail) (rest ++ tail) r := by
  obtain ⟨start, first, before, behind, second, finish⟩ := h
  exact .mk (start.append tail) (first.append tail) (before.append tail) (behind.append tail)
    (second.append tail) (finish.append tail)

/-- A value of any form. -/
theorem ValueText.append {v : Criterion} (h : ValueText loose field cs rest v) :
    ValueText loose field (cs ++ tail) (rest ++ tail) v := by
  cases h with
  | simple literal => exact .simple (literal.append tail)
  | excluded literal => exact .excluded (literal.append tail)
  | range range => exact .range (range.append tail)
  | excludedRange range => exact .excludedRange (range.append tail)
  | comparison mark blanks literal =>
    exact .comparison (by rw [mark, List.append_assoc]) (blanks.append tail) (literal.append tail)
  | pattern mark blanks literal =>
    exact .pattern (by rw [mark, List.append_assoc]) (blanks.append tail) (literal.append tail)

theorem ValueList.append {vs : List Criterion} (h : ValueList loose field cs rest vs) :
    ValueList loose field (cs ++ tail) (rest ++ tail) vs := by
  induction h with
  | one value => exact .one (value.append tail)
  | more value before behind _ ih =>
    exact .more (value.append tail) (before.append tail) (behind.append tail) ih

/-- A name or a label with its sign. -/
theorem FieldToken.append {naming : Naming} (h : FieldToken fields naming cs rest field) :
    FieldToken fields naming (cs ++ tail) (rest ++ tail) field := by
  cases h with
  | name writable text blanks colon found =>
    exact .name writable (by rw [text, List.append_assoc]) (blanks.append tail) colon found
  | label chars text trim unmarked found =>
    exact .label chars (by rw [text, List.append_assoc, List.cons_append]) trim unmarked found

theorem GroupStart.append {logical : Logical} (h : GroupStart cs rest logical) :
    GroupStart (cs ++ tail) (rest ++ tail) logical := by
  cases h with
  | or gaps => exact .or (gaps.append tail)
  | and gaps => exact .and (gaps.append tail)
  | bare gaps => exact .bare (gaps.append tail)

theorem GroupEnd.append (h : GroupEnd cs rest) : GroupEnd (cs ++ tail) (rest ++ tail) := by
  cases h with
  | semicolon spaces => exact .semicolon (spaces.append tail)
  | bare spaces => exact .bare (spaces.append tail)

end Append

/-! ## In front of a closing parenthesis

The end of the text is one of the ends of a field, and the one that has to be replaced. -/

section Followed

variable (more : List Char)

/-- What ends a field at the end of a text ends it in front of a `)`. -/
theorem PairEnd.followed (h : PairEnd cs rest) :
    PairEnd (cs ++ ')' :: more) (rest ++ ')' :: more) := by
  cases h with
  | semicolon => exact .semicolon
  | close => exact .close
  | atEnd => exact .close

/-- A field at the end of a text is one in front of a `)`. -/
theorem Pair.followed {naming : Naming} {vs : List Criterion}
    (h : Pair loose naming fields cs rest field vs) :
    Pair loose naming fields (cs ++ ')' :: more) (rest ++ ')' :: more) field vs := by
  obtain ⟨token, before, values, behind, finish⟩ := h
  exact .mk (token.append _) (before.append _) (values.append _) (behind.append _)
    (finish.followed more)

/-- Items at the end of a text are items in front of a `)`. -/
theorem Items.followed {depth : Nat} {g g' : Group}
    (h : Items loose settings fields depth cs rest g g') :
    Items loose settings fields depth (cs ++ ')' :: more) (rest ++ ')' :: more) g g' := by
  induction h with
  | done spaces => exact .done (spaces.append _)
  | pair spaces pair new limit _ ih =>
    exact .pair (spaces.append _) (pair.followed more) new limit ih
  | group spaces start deep limit _ finish _ ihbody ih =>
    exact .group (spaces.append _) (start.append _) deep limit ihbody (finish.append _) ih

end Followed

/-! ## One level below

The depth of the items is compared with the limit only where a group starts. -/

/-- Items leave the logical of their group as it is. -/
theorem Items.logical_eq {depth : Nat} {g g' : Group}
    (h : Items loose settings fields depth cs rest g g') : g'.logical = g.logical := by
  induction h with
  | done => rfl
  | pair _ _ _ _ _ ih => exact ih
  | group _ _ _ _ _ _ _ _ ih => exact ih

/-- Items are items one level below, and make the same of a group of another logical. -/
theorem Items.deeper {depth : Nat} {g g' : Group} (logical : Logical)
    (h : Items loose settings fields depth cs rest g g') :
    Items loose { settings with maxDepth := settings.maxDepth + 1 } fields (depth + 1) cs rest
      { g with logical } { g' with logical } := by
  induction h generalizing logical with
  | done spaces => exact .done spaces
  | pair spaces pair new limit _ ih => exact .pair spaces pair new limit (ih logical)
  | @group _ _ _ _ _ _ _ _ _ _ l spaces start deep limit body finish _ ihbody ih =>
    have hbody := ihbody l
    rw [Group.with_logical body.logical_eq] at hbody
    exact .group spaces start (Nat.succ_lt_succ deep) limit hbody finish (ih logical)

/-- A text between the parentheses of a group is the only item of a condition. -/
theorem conditionText_of_items {c₁ : List Char} {logical : Logical} {sub : Group}
    (start : GroupStart cs (c₁ ++ [')']) logical) (hd : 0 < settings.maxDepth)
    (hg : 0 < settings.maxGroups)
    (body : Items loose settings fields 1 (c₁ ++ [')']) [')'] { logical } sub) :
    ConditionText loose settings fields cs { groups := [sub] } :=
  .and (.group (Run.refl ..) start hd hg body (.bare (Run.refl ..)) (.done (Run.refl ..)))

end Grammar

/-! ## Whole texts -/

namespace Condition

open Grammar

variable {settings : Settings} {fields : FieldSet} {text : String} {c : Condition}

/-- **A condition in parentheses is a group.**  Where one more level is allowed, a text that is read
as an AND group is read in parentheses, with the marker `&` or without one, as an AND group with
that group in it and nothing else; with the marker `*` the group in it is an OR group. -/
theorem parse_parenthesized {wide : Settings} (hn : settings.naming = wide.naming)
    (hd : settings.maxDepth + 1 ≤ wide.maxDepth) (hv : settings.maxValues ≤ wide.maxValues)
    (hg : settings.maxGroups ≤ wide.maxGroups) (hone : 1 ≤ wide.maxGroups)
    (h : parse settings fields text = .ok c) (hand : c.root.logical = .and) :
    parse wide fields ("(" ++ text ++ ")") = .ok ⟨fields, { groups := [c.root] }⟩ ∧
      parse wide fields ("&(" ++ text ++ ")") = .ok ⟨fields, { groups := [c.root] }⟩ ∧
      parse wide fields ("*(" ++ text ++ ")") =
        .ok ⟨fields, { groups := [{ c.root with logical := .or }] }⟩ := by
  obtain ⟨set, root⟩ := c
  cases State.fields_of_ofSession h
  -- what the text denotes by itself it denotes one level deeper, in front of the parenthesis
  have hbody : ∀ logical, Items false wide set 1 (text.toList ++ [')']) [')'] { logical }
      { root with logical } := fun logical => by
    cases (State.ofSession_start text).1 h with
    | and items =>
      have hdeeper := items.deeper logical
      refine (Items.mono ?_ ?_ ?_ ?_ hdeeper).followed []
      · exact hn
      · exact hd
      · exact hv
      · exact hg
    | or _ _ items => cases items.logical_eq.symm.trans hand
  have hread : ∀ (mark : String) (logical : Logical),
      GroupStart (mark ++ text ++ ")").toList (text.toList ++ [')']) logical →
        parse wide set (mark ++ text ++ ")") =
          .ok ⟨set, { groups := [{ root with logical }] }⟩ := fun _ logical start =>
    (State.ofSession_start _).2 (conditionText_of_items start (by omega) hone (hbody logical))
  have hroot : { root with logical := .and } = root := Group.with_logical hand
  have hgaps : Gaps ('(' :: (text.toList ++ [')'])) ('(' :: (text.toList ++ [')'])) := Run.refl ..
  refine ⟨?_, ?_, ?_⟩
  · rw [hread "(" .and (by simpa using GroupStart.bare hgaps), hroot]
  · rw [hread "&(" .and (by simpa using GroupStart.and hgaps), hroot]
  · exact hread "*(" .or (by simpa using GroupStart.or hgaps)

/-- A text without a separator at its end, and with a parenthesis in quotes. -/
def sampleText : String :=
  "*(name: \"a)\"); id: !1 ~ 2"

theorem parse_parenthesized_sample : ∃ c, c.root.logical = .and ∧
    parse { maxDepth := 1, maxGroups := 1 } .sample sampleText = .ok c ∧
    parse { maxDepth := 2, maxGroups := 1 } .sample ("(" ++ sampleText ++ ")") =
      .ok ⟨.sample, { groups := [c.root] }⟩ ∧
    parse { maxDepth := 2, maxGroups := 1 } .sample ("&(" ++ sampleText ++ ")") =
      .ok ⟨.sample, { groups := [c.root] }⟩ ∧
    parse { maxDepth := 2, maxGroups := 1 } .sample ("*(" ++ sampleText ++ ")") =
      .ok ⟨.sample, { groups := [{ c.root with logical := .or }] }⟩ := by
  have hread : (parse { maxDepth := 1, maxGroups := 1 } .sample sampleText).toOption.any
      (·.root.logical == .and) = true := by decide +kernel
  cases hc : parse { maxDepth := 1, maxGroups := 1 } .sample sampleText with
  | error => rw [hc] at hread; cases hread
  | ok c =>
    rw [hc] at hread
    have hand : c.root.logical = .and := of_decide_eq_true hread
    exact ⟨c, hand, rfl, @parse_parenthesized { maxDepth := 1, maxGroups := 1 } .sample sampleText c
      { maxDepth := 2, maxGroups := 1 } rfl (by decide) (by decide) (by decide) (by decide) hc hand⟩

end Condition
end Criteria
