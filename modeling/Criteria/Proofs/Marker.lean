import Criteria.Export.Text
import Criteria.Proofs.Acceptance
import Criteria.Proofs.Reading.Continuation

/-!
# White space behind the marker of a group

Between the marker of a group and its parenthesis stand spaces, tabs, carriage returns and line
feeds.  Any other white space takes the two apart, although it may stand in front of every item: the
marker is then a `*` in front of the whole condition, or belongs to nothing.

The two places look at white space differently.  In front of an item all of it is skipped; between a
marker and its parenthesis only the four characters above are, and so a no-break space there
separates the two.  Such a text is not simply rejected.  If it starts with a `*`, this can be taken
for the one in front of the whole condition, and then the text is read, as another tree.

## What is here

* `Grammar.marked` — a marker, white space and a parenthesis: `groupStart_marked` and
  `isGap_of_groupStart` tell which white space leaves it the start of a group.
* `Grammar.Items.exists_added` — items add the same to each group with these fields and as many
  subgroups.
* `Condition.Leads` — texts behind which an item can start.
* `Condition.parse_marker_spaces` — when the white space behind a marker does not matter, and what a
  text is read as when it does.

The statement covers every text in which a marker and a parenthesis occur where an item can start,
so the text in front is arbitrary up to this, and so is the text behind.  What reading makes of the
text in front is some group; the items behind it add the same to any group with the same fields and
as many subgroups, which is why nothing else has to be known of it.
-/

set_option autoImplicit false

namespace Criteria

open Grammar

/-! ## A marker, white space and a parenthesis

The grammar decides: with gaps in between a group starts, and with other white space no item
does. -/

namespace Grammar

variable {settings : Settings} {fields : FieldSet} {logical l : Logical}
  {spaces back rest : List Char} {g g' t : Group}

/-- A marker, white space, a parenthesis and what is behind it. -/
def marked (logical : Logical) (spaces back : List Char) : List Char :=
  (logical.marker true).toList ++ (spaces ++ '(' :: back)

/-- With gaps in between, a marker and a parenthesis start a group. -/
theorem groupStart_marked (h : ∀ x ∈ spaces, Text.isGap x = true) :
    GroupStart (marked logical spaces back) back logical := by
  cases logical with
  | and => exact .and ⟨spaces, h, rfl⟩
  | or => exact .or ⟨spaces, h, rfl⟩

/-- What stands in front of the parenthesis are gaps, if the text starts with gaps and a
parenthesis. -/
theorem isGap_of_gaps (hs : ∀ x ∈ spaces, Unicode.isSpace x = true)
    (h : Gaps (spaces ++ '(' :: back) ('(' :: rest)) : ∀ x ∈ spaces, Text.isGap x = true := by
  have hopen := h.eq_dropWhile ((stops_cons ..).2 rfl)
  obtain ⟨run, hrun, he⟩ := run_dropWhile Text.isGap spaces
  rw [List.dropWhile_append] at hopen
  cases hd : spaces.dropWhile Text.isGap with
  | nil =>
    rw [hd, List.append_nil] at he
    rwa [he]
  | cons x xs =>
    -- the first character that is not allowed would have to be the parenthesis
    rw [hd] at hopen he
    cases (List.cons.inj hopen).1
    cases hs '(' (by simp [he])

/-- The marker is the start of a group only with the four characters that are allowed there. -/
theorem isGap_of_groupStart (hs : ∀ x ∈ spaces, Unicode.isSpace x = true)
    (h : GroupStart (marked logical spaces back) rest l) : ∀ x ∈ spaces, Text.isGap x = true := by
  cases logical with
  | and =>
    cases h with
    | and gaps => exact isGap_of_gaps hs gaps
    | bare gaps => exact absurd gaps.head (by decide)
  | or =>
    cases h with
    | or gaps => exact isGap_of_gaps hs gaps
    | bare gaps => exact absurd gaps.head (by decide)

/-- A marker is the first character. -/
theorem exists_marked_eq (logical : Logical) (spaces back : List Char) :
    ∃ x xs, marked logical spaces back = x :: xs ∧ x ∈ ['*', '&'] := by
  cases logical
  · exact ⟨'&', _, rfl, by simp⟩
  · exact ⟨'*', _, rfl, by simp⟩

theorem stops_marked (logical : Logical) (spaces back : List Char) :
    Stops Unicode.isSpace (marked logical spaces back) := by
  cases logical <;> exact (stops_cons ..).2 rfl

/-- A marker is no `;`, so a condition can go on with it. -/
theorem unseparated_marked (logical : Logical) (spaces back : List Char) :
    Unseparated (marked logical spaces back) := by
  cases logical <;> exact unseparated_cons ((stops_cons ..).2 rfl) (by decide)

/-- With other white space, no item starts with the marker. -/
theorem not_completes_marked {outer : List Group} (hs : ∀ x ∈ spaces, Unicode.isSpace x = true)
    (hn : ¬∀ x ∈ spaces, Text.isGap x = true) :
    ¬Completes settings fields (marked logical spaces back) g outer t := by
  have hstops := stops_marked logical spaces back
  obtain ⟨x, xs, hx, hm⟩ := exists_marked_eq logical spaces back
  have hnone : Opening.at? (marked logical spaces back) = none :=
    at?_eq_none fun _ _ start => hn (isGap_of_groupStart hs start)
  rw [hx] at hstops hnone ⊢
  rw [completes_pair hstops (by rintro rfl; simp at hm) hnone]
  rintro ⟨field, vs, c₁, hpair, -⟩
  exact absurd (by grind) hpair.not_mem

/-- In front of a condition, the marker of a group is not the one of the root. -/
theorem conditionText_marked_iff (h : ∀ x ∈ spaces, Text.isGap x = true) :
    ConditionText false settings fields (marked logical spaces back) t ↔
      Completes settings fields (marked logical spaces back) {} [] t := by
  refine State.conditionText_and_iff fun c₁ hstar => ?_
  have he := hstar.eq_of_stops (stops_marked logical spaces back)
  cases logical with
  | and => cases (List.cons.inj he).1
  | or =>
    rw [(List.cons.inj he).2]
    exact ⟨back, spaces, h, rfl⟩

/-! ## The same items in another group

Items look at the names of the fields and at the number of subgroups of the group that they are
added to, and at nothing else. -/

/-- Items add the same fields and subgroups to any two groups with the same fields and equally many
subgroups. -/
theorem Items.exists_added {loose : Bool} {depth : Nat} {cs : List Char}
    (h : Items loose settings fields depth cs rest g g') :
    ∃ added, g'.groups = g.groups ++ added ∧
      ∀ (logical : Logical) (groups : List Group), groups.length = g.groups.length →
        Items loose settings fields depth cs rest ⟨logical, g.fields, groups⟩
          ⟨logical, g'.fields, groups ++ added⟩ := by
  induction h with
  | done spaces =>
    refine ⟨[], (List.append_nil _).symm, fun logical groups _ => ?_⟩
    rw [List.append_nil]
    exact .done spaces
  | pair spaces pair new limit _ ih =>
    obtain ⟨added, he, hadded⟩ := ih
    refine ⟨added, he, fun logical groups hl => ?_⟩
    exact .pair spaces pair new limit (hadded logical groups hl)
  | @group _ _ _ _ _ _ _ g sub _ _ spaces start deep limit body finish _ _ ih =>
    obtain ⟨added, he, hadded⟩ := ih
    refine ⟨sub :: added, by rw [he]; simp [Group.addGroup], fun logical groups hl => ?_⟩
    have hitems := hadded logical (groups ++ [sub]) (by simp [Group.addGroup, hl])
    rw [List.append_assoc] at hitems
    exact .group spaces start deep (hl ▸ limit) body finish hitems

/-- What items make of a group but for its logical does not depend on the logical. -/
theorem Items.with_logical {loose : Bool} {depth : Nat} {cs : List Char} (logical : Logical)
    (h : Items loose settings fields depth cs rest g g') :
    Items loose settings fields depth cs rest { g with logical } { g' with logical } := by
  obtain ⟨added, he, hadded⟩ := h.exists_added
  have hitems := hadded logical g.groups rfl
  rwa [← he] at hitems

/-- A group without a marker can be given one. -/
theorem exists_items_marked (logical : Logical)
    (h : Items false settings fields 0 ('(' :: back) [] g t) :
    ∃ t', Items false settings fields 0 (marked logical [] back) [] g t' := by
  rcases h.inversion ((stops_cons ..).2 rfl) with ⟨hnil, -⟩ | ⟨_, _, _, hpair, -⟩ |
    ⟨_, sub, _, _, _, start, deep, limit, body, finish, items⟩
  · cases hnil
  · exact absurd (by simp) hpair.not_mem
  · cases start with
    | bare gaps =>
      cases gaps.eq_of_stops ((stops_cons ..).2 rfl)
      obtain ⟨added, -, hbody⟩ := body.exists_added
      obtain ⟨added', -, hitems⟩ := items.exists_added
      have hsub := hbody logical [] rfl
      have hrest := hitems g.logical (g.groups ++ [⟨logical, sub.fields, [] ++ added⟩])
        (by simp [Group.addGroup])
      exact ⟨_, .group (Run.refl ..) (groupStart_marked (List.forall_mem_nil _)) deep limit hsub
        finish hrest⟩

/-! ## White space in front of a condition, and in front of its first group

At the start of a text two readings compete, and the `*` in front of all items is taken only where
no group starts with it. -/

/-- White space in front of a condition makes no difference. -/
theorem conditionText_of_spaces {cs c₁ : List Char} (h : Spaces cs c₁) :
    ConditionText false settings fields cs t ↔ ConditionText false settings fields c₁ t := by
  constructor
  · intro htext
    cases htext with
    | and items =>
      rw [← completes_root, completes_of_spaces h, completes_root] at items
      exact .and items
    | or spaces noGroup items =>
      exact .or (spaces.to_stops h ((stops_cons ..).2 rfl)) noGroup items
  · intro htext
    cases htext with
    | and items => exact .and (items.of_spaces h)
    | or spaces noGroup items => exact .or (h.trans spaces) noGroup items

/-- A text that starts with a parenthesis has no `*` in front of its items. -/
theorem conditionText_paren_iff :
    ConditionText false settings fields ('(' :: back) t ↔
      Items false settings fields 0 ('(' :: back) [] {} t := by
  rw [State.conditionText_and_iff, completes_root]
  intro c₁ hstar
  cases hstar.eq_of_stops ((stops_cons ..).2 rfl)

/-- With other white space, a `*` in front of a condition is the one of the root, and a `&` is in
front of nothing. -/
theorem conditionText_spaced_iff (hs : ∀ x ∈ spaces, Unicode.isSpace x = true)
    (hn : ¬∀ x ∈ spaces, Text.isGap x = true) :
    ConditionText false settings fields (marked logical spaces back) t ↔
      logical = .or ∧ ∃ root, ConditionText false settings fields ('(' :: back) root ∧
        t = { root with logical := .or } := by
  cases logical with
  | and =>
    rw [State.conditionText_and_iff]
    · exact iff_of_false (not_completes_marked hs hn) (fun h => nomatch h.1)
    · intro c₁ hstar
      cases (List.cons.inj (hstar.eq_of_stops (stops_marked .and spaces back))).1
  | or =>
    have hstar : Spaces (marked .or spaces back) ('*' :: (spaces ++ '(' :: back)) := Run.refl ..
    have hspaces : Spaces (spaces ++ '(' :: back) ('(' :: back) := ⟨spaces, hs, rfl⟩
    rw [State.conditionText_or_iff hstar fun _ gaps => hn (isGap_of_gaps hs gaps),
      completes_of_spaces hspaces, completes_root]
    constructor
    · intro items
      refine ⟨rfl, _, conditionText_paren_iff.2 (items.with_logical .and), ?_⟩
      exact (Group.with_logical items.logical_eq).symm
    · rintro ⟨-, root, htext, rfl⟩
      exact (conditionText_paren_iff.1 htext).with_logical .or

/-- Without white space behind it, the marker belongs to the first group, and the root is an AND
group. -/
theorem logical_of_marked (h : ConditionText false settings fields (marked logical [] back) t) :
    t.logical = .and ∧ t.groups.head?.map Group.logical = some logical := by
  have hmarked : GroupStart (marked logical [] back) back logical :=
    groupStart_marked (List.forall_mem_nil _)
  have hitems := completes_root.1 ((conditionText_marked_iff (List.forall_mem_nil _)).1 h)
  refine ⟨hitems.logical_eq, ?_⟩
  obtain ⟨x, xs, hx, hm⟩ := exists_marked_eq logical [] back
  rcases hitems.inversion (stops_marked logical [] back) with ⟨hnil, -⟩ | ⟨_, _, _, hpair, -⟩ |
    ⟨l, sub, _, _, _, start, -, -, body, -, items⟩
  · rw [hx] at hnil
    cases hnil
  · rw [hx] at hpair
    exact absurd (by grind) hpair.not_mem
  · obtain ⟨marker, length, ha, rfl, -⟩ := hmarked.at?
    obtain ⟨marker', length', ha', rfl, -⟩ := start.at?
    cases ha.symm.trans ha'
    obtain ⟨groups, hgroups⟩ := items.extends.2
    rw [← hgroups]
    exact congrArg some body.logical_eq

end Grammar

/-! ## Whole texts

The results are carried over from the grammar to reading.  A text that is rejected is one that
denotes no tree. -/

namespace Condition

variable {settings : Settings} {fields : FieldSet} {logical : Logical}
  {front spaces back : String}

/-- The text is white space, or it is read as a condition and ends in a `;`.  Further items can
follow. -/
def Leads (settings : Settings) (fields : FieldSet) (front : String) : Prop :=
  (∀ x ∈ front.toList, Unicode.isSpace x = true) ∨
    front.toList.getLast? = some ';' ∧ ∃ c, parse settings fields front = .ok c

/-- A text that is read denotes its tree. -/
theorem exists_conditionText_of_parse {text : String} {c : Condition}
    (h : parse settings fields text = .ok c) :
    ∃ t, c = ⟨fields, t⟩ ∧ ConditionText false settings fields text.toList t := by
  obtain ⟨_, t⟩ := c
  cases State.fields_of_ofSession h
  exact ⟨t, rfl, (State.ofSession_start text).1 h⟩

/-- Two texts are read as the same conditions if they denote the same trees. -/
theorem parse_congr_iff {text text' : String} :
    (∀ c, parse settings fields text = .ok c ↔ parse settings fields text' = .ok c) ↔
      ∀ t, ConditionText false settings fields text.toList t ↔
        ConditionText false settings fields text'.toList t := by
  constructor
  · intro h t
    rw [← State.ofSession_start, ← State.ofSession_start]
    exact h ⟨fields, t⟩
  · intro h c
    constructor
    · intro hc
      obtain ⟨t, rfl, ht⟩ := exists_conditionText_of_parse hc
      exact (State.ofSession_start text').2 ((h t).1 ht)
    · intro hc
      obtain ⟨t, rfl, ht⟩ := exists_conditionText_of_parse hc
      exact (State.ofSession_start text).2 ((h t).2 ht)

/-- A text is rejected if it denotes no tree. -/
theorem parse_ne_ok_iff {text : String} :
    (∀ c, parse settings fields text ≠ .ok c) ↔
      ∀ t, ¬ConditionText false settings fields text.toList t := by
  constructor
  · exact fun h t ht => h _ ((State.ofSession_start text).2 ht)
  · intro h c hc
    obtain ⟨t, -, ht⟩ := exists_conditionText_of_parse hc
    exact h t ht

/-- The characters of the text with white space behind the marker. -/
theorem toList_spaced (logical : Logical) (front spaces back : String) :
    (front ++ logical.marker true ++ spaces ++ "(" ++ back).toList =
      front.toList ++ marked logical spaces.toList back.toList := by
  simp [marked, String.toList_append]

/-- The characters of the text without white space behind the marker. -/
theorem toList_plain (logical : Logical) (front back : String) :
    (front ++ logical.marker true ++ "(" ++ back).toList =
      front.toList ++ marked logical [] back.toList := by
  simp [marked, String.toList_append]

/-- A text that leads is white space, or what follows is added to its tree. -/
theorem Leads.isSpace_or_completes (h : Leads settings fields front) :
    (∀ x ∈ front.toList, Unicode.isSpace x = true) ∨
      (¬∀ x ∈ front.toList, Unicode.isSpace x = true) ∧ ∃ g, ∀ {tail : List Char} {t : Group},
        Unseparated tail → (ConditionText false settings fields (front.toList ++ tail) t ↔
          Completes settings fields tail g [] t) := by
  obtain hblank | ⟨hlast, c, hc⟩ := h
  · exact .inl hblank
  · obtain ⟨g, -, hg⟩ := exists_conditionText_of_parse hc
    have hmem := List.mem_of_getLast? hlast
    have ht : Terminated front.toList := fun x hx => (Option.some.inj (hlast.symm.trans hx)).symm
    refine .inr ⟨fun hall => ?_, g, conditionText_append hg ht (List.ne_nil_of_mem hmem)⟩
    cases hall ';' hmem

/-- The white space that is allowed behind a marker does not matter. -/
theorem Leads.conditionText_congr (h : Leads settings fields front) {cs : List Char}
    (hg : ∀ x ∈ cs, Text.isGap x = true) (logical : Logical) (back : List Char) (t : Group) :
    ConditionText false settings fields (front.toList ++ marked logical cs back) t ↔
      ConditionText false settings fields (front.toList ++ marked logical [] back) t := by
  have hnil : ∀ x ∈ ([] : List Char), Text.isGap x = true := List.forall_mem_nil _
  obtain hblank | ⟨-, g, hcompletes⟩ := h.isSpace_or_completes
  · rw [conditionText_of_spaces ⟨front.toList, hblank, rfl⟩,
      conditionText_of_spaces ⟨front.toList, hblank, rfl⟩, conditionText_marked_iff hg,
      conditionText_marked_iff hnil, completes_of_start (groupStart_marked hg),
      completes_of_start (groupStart_marked hnil)]
  · rw [hcompletes (unseparated_marked _ _ _), hcompletes (unseparated_marked _ _ _),
      completes_of_start (groupStart_marked hg), completes_of_start (groupStart_marked hnil)]

/-- Other white space takes the marker off the group. -/
theorem Leads.conditionText_spaced_iff (h : Leads settings fields front) {cs : List Char}
    (hs : ∀ x ∈ cs, Unicode.isSpace x = true) (hn : ¬∀ x ∈ cs, Text.isGap x = true)
    (logical : Logical) (back : List Char) (t : Group) :
    ConditionText false settings fields (front.toList ++ marked logical cs back) t ↔
      logical = .or ∧ (∀ x ∈ front.toList, Unicode.isSpace x = true) ∧
        ∃ root, ConditionText false settings fields ('(' :: back) root ∧
          t = { root with logical := .or } := by
  obtain hblank | ⟨hblank, g, hcompletes⟩ := h.isSpace_or_completes
  · rw [conditionText_of_spaces ⟨front.toList, hblank, rfl⟩, Grammar.conditionText_spaced_iff hs hn]
    exact and_congr_right fun _ => (and_iff_right hblank).symm
  · rw [hcompletes (unseparated_marked _ _ _)]
    exact iff_of_false (not_completes_marked hs hn) fun h => hblank h.2.1

/-- The texts with and without other white space denote the same trees only if they denote none. -/
theorem Leads.conditionText_congr_iff (h : Leads settings fields front) {cs : List Char}
    (hs : ∀ x ∈ cs, Unicode.isSpace x = true) (hn : ¬∀ x ∈ cs, Text.isGap x = true)
    (logical : Logical) (back : List Char) :
    (∀ t, ConditionText false settings fields (front.toList ++ marked logical cs back) t ↔
        ConditionText false settings fields (front.toList ++ marked logical [] back) t) ↔
      ∀ t, ¬ConditionText false settings fields (front.toList ++ marked logical [] back) t := by
  constructor
  · intro hcongr t ht
    obtain ⟨-, hblank, root, -, rfl⟩ :=
      (h.conditionText_spaced_iff hs hn logical back t).1 ((hcongr t).2 ht)
    rw [conditionText_of_spaces ⟨front.toList, hblank, rfl⟩] at ht
    cases (logical_of_marked ht).1
  · refine fun hnever t => iff_of_false (fun ht => ?_) (hnever t)
    obtain ⟨rfl, hblank, root, htext, -⟩ := (h.conditionText_spaced_iff hs hn logical back t).1 ht
    obtain ⟨t', items⟩ := exists_items_marked .or (conditionText_paren_iff.1 htext)
    refine hnever t' ((conditionText_of_spaces ⟨front.toList, hblank, rfl⟩).2 ?_)
    exact .and items

/-- **Which white space behind the marker of a group does not matter.**

In front of the marker let there be white space, or a condition that ends in a `;`.  Then white
space between the marker and the parenthesis changes nothing if it is made of spaces, tabs, carriage
returns and line feeds, or if the text without it is rejected anyway.  In all other cases the text
is not read as the text without it: it is rejected, except where a `*` is the first character that
is not white space.  Then the root becomes an OR group, and the first group in it an AND group;
without the white space the marker belongs to the first group, and the root is an AND group. -/
theorem parse_marker_spaces (hfront : Leads settings fields front)
    (hspaces : ∀ x ∈ spaces.toList, Unicode.isSpace x = true) :
    ((∀ c, parse settings fields (front ++ logical.marker true ++ spaces ++ "(" ++ back) = .ok c ↔
        parse settings fields (front ++ logical.marker true ++ "(" ++ back) = .ok c) ↔
      (∀ x ∈ spaces.toList, Text.isGap x = true) ∨
        ∀ c, parse settings fields (front ++ logical.marker true ++ "(" ++ back) ≠ .ok c) ∧
    ((¬∀ x ∈ spaces.toList, Text.isGap x = true) → ∀ c,
      parse settings fields (front ++ logical.marker true ++ spaces ++ "(" ++ back) = .ok c ↔
        logical = .or ∧ (∀ x ∈ front.toList, Unicode.isSpace x = true) ∧
          ∃ root, parse settings fields ("(" ++ back) = .ok ⟨fields, root⟩ ∧
            c = ⟨fields, { root with logical := .or }⟩) ∧
    ((∀ x ∈ front.toList, Unicode.isSpace x = true) → ∀ c,
      parse settings fields (front ++ logical.marker true ++ "(" ++ back) = .ok c →
        c.root.logical = .and ∧ c.root.groups.head?.map Group.logical = some logical) := by
  refine ⟨?_, fun hn c => ?_, fun hblank c hc => ?_⟩
  · rw [parse_congr_iff, parse_ne_ok_iff, toList_spaced, toList_plain]
    by_cases hg : ∀ x ∈ spaces.toList, Text.isGap x = true
    · exact iff_of_true (hfront.conditionText_congr hg logical back.toList) (.inl hg)
    · exact (hfront.conditionText_congr_iff hspaces hg logical back.toList).trans
        (or_iff_right hg).symm
  · have hiff := hfront.conditionText_spaced_iff hspaces hn logical back.toList
    have hback : ∀ root, parse settings fields ("(" ++ back) = .ok ⟨fields, root⟩ ↔
        ConditionText false settings fields ('(' :: back.toList) root := fun root =>
      (State.ofSession_start ("(" ++ back)).trans (by rw [String.toList_append]; rfl)
    constructor
    · intro hc
      obtain ⟨t, rfl, ht⟩ := exists_conditionText_of_parse hc
      rw [toList_spaced, hiff] at ht
      obtain ⟨hor, hblank, root, htext, rfl⟩ := ht
      exact ⟨hor, hblank, root, (hback root).2 htext, rfl⟩
    · rintro ⟨hor, hblank, root, hroot, rfl⟩
      refine (State.ofSession_start _).2 ?_
      rw [toList_spaced, hiff]
      exact ⟨hor, hblank, root, (hback root).1 hroot, rfl⟩
  · obtain ⟨t, rfl, ht⟩ := exists_conditionText_of_parse hc
    rw [toList_plain, conditionText_of_spaces ⟨front.toList, hblank, rfl⟩] at ht
    exact logical_of_marked ht

/-- Behind a `*` in the middle of a text, a tab and a line feed do not matter. -/
theorem parse_marker_spaces_sample : ∃ c,
    parse {} .sample ("id: 1;" ++ "*" ++ "(" ++ "name: a)") = .ok c ∧
      parse {} .sample ("id: 1;" ++ "*" ++ "\t\n" ++ "(" ++ "name: a)") = .ok c := by
  obtain ⟨front, hfront⟩ := exists_of_isOk (x := parse {} .sample "id: 1;") (by decide +kernel)
  have hleads : Leads {} .sample "id: 1;" := .inr ⟨by decide, front, hfront⟩
  have hgaps : ∀ x ∈ "\t\n".toList, Text.isGap x = true := forall_mem_of_all (by decide)
  obtain ⟨hsame, -, -⟩ := @parse_marker_spaces {} .sample .or "id: 1;" "\t\n" "name: a)" hleads
    fun x hx => Text.isSpace_of_isGap (hgaps x hx)
  obtain ⟨c, hc⟩ := exists_of_isOk
    (x := parse {} .sample ("id: 1;" ++ "*" ++ "(" ++ "name: a)")) (by decide +kernel)
  exact ⟨c, hc, (hsame.2 (.inl hgaps) c).2 hc⟩

/-- A no-break space behind the first `*` makes an OR group of the root, which is an AND group
without it. -/
theorem not_parse_marker_spaces : ¬∀ (settings : Settings) (fields : FieldSet) (logical : Logical)
    (front spaces back : String), Leads settings fields front →
    (∀ x ∈ spaces.toList, Unicode.isSpace x = true) → ∀ c,
      parse settings fields (front ++ logical.marker true ++ spaces ++ "(" ++ back) = .ok c ↔
        parse settings fields (front ++ logical.marker true ++ "(" ++ back) = .ok c := by
  intro h
  have hsame := h {} .sample .or "" "\u00a0" "id: 1)" (.inl (by simp))
    (forall_mem_of_all (by decide))
  have hplain : (parse {} .sample
      ("" ++ Logical.or.marker true ++ "(" ++ "id: 1)")).toOption.any
        (·.root.logical == .and) = true := by decide +kernel
  have hspaced : (parse {} .sample
      ("" ++ Logical.or.marker true ++ "\u00a0" ++ "(" ++ "id: 1)")).toOption.any
        (·.root.logical == .and) = false := by decide +kernel
  cases hc : parse {} .sample ("" ++ Logical.or.marker true ++ "(" ++ "id: 1)") with
  | error ds =>
    rw [hc] at hplain
    cases hplain
  | ok c =>
    rw [(hsame c).2 hc] at hspaced
    rw [hc, hspaced] at hplain
    cases hplain

end Condition
end Criteria
