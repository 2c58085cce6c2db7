import Criteria.Parse
import Criteria.Proofs.Grammar.Items
import Criteria.Proofs.Reading.Pair

/-!
# Reading the items of a condition

The grammar is recursive, reading keeps a stack of the groups that are open.  What the two have in
common is what the stack still demands of the text: the items of the innermost group up to its end,
then those of the group around it, and so on.

The statement that is proved by induction on a run is about any state inside of any groups, so the
grammar has to be said for such a state, too.  `Completes` does this: the text from here on
completes the current group and those around it to a certain tree.  For a whole text it is the
grammar itself.  One item then changes the state and the demand together, and what is left is to
compare them at each sort of item: the demand is met before the item exactly if the item is read
without a fault and the demand is met behind it.

## What is here

* `Closes`, `Completes` — what the text behind a finished group has to be, and the text from any
  place inside a group on.
* `completes_nil`, `completes_close`, `completes_group`, `completes_pair` — one for each sort of
  item.
* `State.Sees` — a session without faults, and the groups that it has open.
* `State.continues_step?` — one item is read without a fault exactly if the text can be completed,
  and reading it does not change to what.
* `State.ofSession_run` — by induction, all items.
* `State.ofSession_start` — whole texts.

Since the comparison is an equivalence for every tree, one induction proves both directions, and
that the tree is the right one.  Its only measure is the run itself, which ends because every item
takes something off the text or ends a group.
-/

set_option autoImplicit false

namespace Criteria

open Grammar

/-! ## What is left to read

The demand is taken apart by the first characters of the text, in the same cases as reading takes
them: the end of the text, a `)`, the start of a group, and anything else. -/

section Demand

variable {settings : Settings} {fields : FieldSet} {cs rest : List Char} {g t : Group}
  {outer : List Group}

/-- What the text behind the finished group `g` has to be for the tree to become `t`: at the root
nothing, and in a group its end, and what completes the groups around it. -/
inductive Closes (settings : Settings) (fields : FieldSet) :
    List Group → List Char → Group → Group → Prop
  | root {t : Group} : Closes settings fields [] [] t t
  | group {outer : List Group} {p g g' t : Group} {c₁ c₂ rest : List Char} (finish : GroupEnd c₁ c₂)
      (items : Items false settings fields outer.length c₂ rest (p.addGroup g) g')
      (closes : Closes settings fields outer rest g' t) :
      Closes settings fields (p :: outer) (')' :: c₁) g t

/-- The text completes the group `g`, and the groups `outer` around it, to the tree `t`. -/
def Completes (settings : Settings) (fields : FieldSet) (cs : List Char) (g : Group)
    (outer : List Group) (t : Group) : Prop :=
  ∃ rest g', Items false settings fields outer.length cs rest g g' ∧
    Closes settings fields outer rest g' t

/-- Behind a finished group the text is at its end or goes on with a `)`. -/
theorem Closes.head (h : Closes settings fields outer rest g t) :
    (outer = [] ∧ rest = [] ∧ t = g) ∨ ∃ c₁, rest = ')' :: c₁ := by
  cases h with
  | root => exact .inl ⟨rfl, rfl, rfl⟩
  | @group _ _ _ _ _ c₁ => exact .inr ⟨c₁, rfl⟩

theorem Closes.stops (h : Closes settings fields outer rest g t) : Stops Unicode.isSpace rest := by
  rcases h.head with ⟨-, rfl, -⟩ | ⟨c₁, rfl⟩
  · exact stops_nil _
  · exact (stops_cons ..).2 rfl

/-- White space in front makes no difference to what is left to read. -/
theorem completes_of_spaces {c₁ : List Char} (h : Spaces cs c₁) :
    Completes settings fields cs g outer t ↔ Completes settings fields c₁ g outer t := by
  constructor
  · rintro ⟨rest, g', hitems, hcloses⟩
    refine ⟨rest, g', Items.of_spaces (run_dropWhile Unicode.isSpace c₁) ?_, hcloses⟩
    rw [← h.dropWhile_eq]
    exact hitems.dropWhile hcloses.stops
  · rintro ⟨rest, g', hitems, hcloses⟩
    exact ⟨rest, g', hitems.of_spaces h, hcloses⟩

/-- At the root, what is left to read are the items of the root. -/
theorem completes_root : Completes settings fields cs g [] t ↔
    Items false settings fields 0 cs [] g t := by
  constructor
  · rintro ⟨rest, g', hitems, hcloses⟩
    cases hcloses
    exact hitems
  · exact fun hitems => ⟨[], t, hitems, .root⟩

/-- At the end of the text all groups have to be closed. -/
theorem completes_nil : Completes settings fields [] g outer t ↔ outer = [] ∧ t = g := by
  constructor
  · rintro ⟨rest, g', hitems, hcloses⟩
    rcases hitems.inversion (stops_nil _) with ⟨rfl, rfl⟩ | ⟨_, _, _, hp, -⟩ |
      ⟨_, _, _, _, _, hs, -⟩
    · rcases hcloses.head with ⟨ho, -, ht⟩ | ⟨c₁, hc⟩
      · exact ⟨ho, ht⟩
      · cases hc
    · obtain ⟨x, xs, hx, -⟩ := hp.head (stops_nil _)
      cases hx
    · obtain ⟨x, xs, hx, -⟩ := hs.head (stops_nil _)
      cases hx
  · rintro ⟨rfl, rfl⟩
    exact ⟨[], t, .done (Run.refl ..), .root⟩

/-- A `)` ends the innermost group. -/
theorem completes_close : Completes settings fields (')' :: cs) g outer t ↔
    ∃ p around c₁, outer = p :: around ∧ GroupEnd cs c₁ ∧
      Completes settings fields c₁ (p.addGroup g) around t := by
  have hstops : Stops Unicode.isSpace (')' :: cs) := (stops_cons ..).2 rfl
  constructor
  · rintro ⟨rest, g', hitems, hcloses⟩
    rcases hitems.inversion hstops with ⟨rfl, rfl⟩ | ⟨_, _, _, hp, -⟩ | ⟨_, _, _, _, _, hs, -⟩
    · cases hcloses with
      | group finish items closes => exact ⟨_, _, _, rfl, finish, _, _, items, closes⟩
    · exact absurd (by simp) hp.not_mem
    · obtain ⟨x, xs, hx, hm⟩ := hs.head hstops
      cases hx
      exact absurd hm (by simp)
  · rintro ⟨p, around, c₁, rfl, finish, rest, g', items, closes⟩
    exact ⟨')' :: cs, g, .done (Run.refl ..), .group finish items closes⟩

/-- A group is completed inside the groups that are open where it starts. -/
theorem completes_group {c₁ : List Char} {logical : Logical} (hstart : GroupStart cs c₁ logical)
    (hs : Stops Unicode.isSpace cs) : Completes settings fields cs g outer t ↔
      outer.length < settings.maxDepth ∧ g.groups.length < settings.maxGroups ∧
        Completes settings fields c₁ { logical } (g :: outer) t := by
  obtain ⟨x, xs, rfl, hx⟩ := hstart.head hs
  constructor
  · rintro ⟨rest, g', hitems, hcloses⟩
    rcases hitems.inversion hs with ⟨rfl, rfl⟩ | ⟨_, _, _, hp, -⟩ |
      ⟨_, _, _, _, _, hstart', hdeep, hlimit, hbody, hfinish, hitems⟩
    · rcases hcloses.head with ⟨-, hc, -⟩ | ⟨c₁, hc⟩ <;> cases hc
      exact absurd hx (by simp)
    · exact absurd (by grind) hp.not_mem
    · obtain ⟨marker, length, ha, rfl, rfl⟩ := hstart.at?
      obtain ⟨marker', length', ha', rfl, rfl⟩ := hstart'.at?
      cases ha.symm.trans ha'
      exact ⟨hdeep, hlimit, _, _, hbody, .group hfinish hitems hcloses⟩
  · rintro ⟨hdeep, hlimit, rest, sub, hbody, hcloses⟩
    cases hcloses with
    | group finish items closes =>
      exact ⟨_, _, .group (Run.refl ..) hstart hdeep hlimit hbody finish items, closes⟩

/-- Where neither a group starts nor one ends, a field follows. -/
theorem completes_pair {x : Char} {xs : List Char} (hs : Stops Unicode.isSpace (x :: xs))
    (hx : x ≠ ')') (ha : Opening.at? (x :: xs) = none) :
    Completes settings fields (x :: xs) g outer t ↔
      ∃ field vs c₁, Pair false settings.naming fields (x :: xs) c₁ field vs ∧
        g.fields.contains field.name = false ∧ vs.length ≤ settings.maxValues ∧
        Completes settings fields c₁ (g.addField field.name (vs.foldl Bag.add {})) outer t := by
  constructor
  · rintro ⟨rest, g', hitems, hcloses⟩
    rcases hitems.inversion hs with ⟨rfl, rfl⟩ | ⟨_, _, _, hp, hnew, hlimit, hitems⟩ |
      ⟨_, _, _, _, _, hstart, -⟩
    · rcases hcloses.head with ⟨-, hc, -⟩ | ⟨c₁, hc⟩ <;> cases hc
      exact absurd rfl hx
    · exact ⟨_, _, _, hp, hnew, hlimit, _, _, hitems, hcloses⟩
    · obtain ⟨_, _, hstart, -⟩ := hstart.at?
      rw [ha] at hstart
      cases hstart
  · rintro ⟨field, vs, c₁, hp, hnew, hlimit, rest, g', hitems, hcloses⟩
    exact ⟨rest, g', .pair (Run.refl ..) hp hnew hlimit hitems, hcloses⟩

/-- No item starts with a `;`. -/
theorem not_completes_semicolon : ¬Completes settings fields (';' :: cs) g outer t := by
  rw [completes_pair ((stops_cons ..).2 rfl) (by decide) rfl]
  rintro ⟨field, vs, c₁, hp, -⟩
  exact absurd (by simp) hp.not_mem

end Demand

/-! ## Behind a group

A `;` may follow the `)` of a group.  The grammar leaves open whether it is taken, and reading takes
it; this is no difference, since nothing else could be done with it. -/

theorem Cursor.skipTerminator_of_stops {c : Cursor} (hs : Stops Text.isBlank c.rest)
    (h : c.rest.head? ≠ some ';') : c.skipTerminator = c := by
  have hb : c.skipBlanks = c := skipWhile_of_stops hs
  rw [skipTerminator, hb]
  split
  · next hc => exact absurd (by rw [hc]; rfl) h
  · rfl

namespace State

variable {settings : Settings} {fields : FieldSet} {cs : List Char} {g t : Group}
  {outer : List Group}

/-- Behind a group reading goes on where the grammar does. -/
theorem completes_behindGroup (c : Cursor) :
    (∃ c₁, GroupEnd c.rest c₁ ∧ Completes settings fields c₁ g outer t) ↔
      Completes settings fields (behindGroup c).rest g outer t := by
  have hspaces := c.spaces_skipSpace
  rw [behindGroup, ← completes_of_spaces (Cursor.spaces_skipSpace _)]
  by_cases hd : c.skipSpace.rest.head? = some ';'
  · obtain ⟨tail, htail⟩ := List.head?_eq_some_iff.1 hd
    rw [htail] at hspaces
    have hterm : c.skipSpace.skipTerminator.rest = tail :=
      Cursor.skipTerminator_of_pairEnd (htail.symm ▸ .semicolon)
    rw [hterm]
    constructor
    · rintro ⟨c₁, hend, hc⟩
      cases hend with
      | semicolon spaces =>
        have he := spaces.eq_dropWhile ((stops_cons ..).2 rfl)
        rw [← hspaces.eq_dropWhile ((stops_cons ..).2 rfl)] at he
        rwa [← (List.cons.inj he).2]
      | bare spaces =>
        -- the grammar may leave the `;` out, but then no item could start with it
        rw [completes_of_spaces (hspaces.to_stops spaces ((stops_cons ..).2 rfl))] at hc
        exact absurd hc not_completes_semicolon
    · exact fun hc => ⟨tail, .semicolon hspaces, hc⟩
  · have hterm := Cursor.skipTerminator_of_stops
      (c.stops_skipSpace.mono fun _ => Text.isSpace_of_isBlank) hd
    rw [hterm]
    constructor
    · rintro ⟨c₁, hend, hc⟩
      cases hend with
      | semicolon spaces =>
        refine absurd ?_ hd
        rw [Cursor.rest_skipSpace, ← spaces.eq_dropWhile ((stops_cons ..).2 rfl)]
        rfl
      | bare spaces =>
        rwa [← completes_of_spaces (hspaces.to_stops spaces c.stops_skipSpace)]
    · exact fun hc => ⟨_, .bare hspaces, hc⟩

/-! ## One item

A state sees its groups while it has no fault.  With a fault there is nothing left to say about the
tree: the text is not in the grammar, and reading will not accept it. -/

/-- In the state no fault is recorded, the current group is `g`, and the groups around it are
`outer`, the innermost first. -/
structure Sees (st : State) (g : Group) (outer : List Group) : Prop where
  faults : st.session.faults = #[]
  shows : st.session.assembly.Shows g outer none
  openings : st.openings.length = outer.length
  stops : Stops Unicode.isSpace st.session.cursor.rest

/-- The state has a fault and the text `cs` cannot be completed, or the state sees groups that the
text behind it completes to the same trees. -/
def Continues (settings : Settings) (fields : FieldSet) (st : State) (cs : List Char) (g : Group)
    (outer : List Group) : Prop :=
  (st.session.faults ≠ #[] ∧ ∀ t, ¬Completes settings fields cs g outer t) ∨
  ∃ g' outer', st.Sees g' outer' ∧ ∀ t, Completes settings fields cs g outer t ↔
    Completes settings fields st.session.cursor.rest g' outer' t

/-- Reading the end of a group completes the group as the grammar does. -/
theorem continues_closeGroup {s : Session} {column : Nat} {openings : List Nat}
    (h : Sees ⟨s, column :: openings⟩ g outer) (hr : s.cursor.rest = ')' :: cs) :
    Continues settings fields ⟨closeGroup column s, openings⟩ s.cursor.rest g outer := by
  obtain ⟨hfaults, hshows, hlength, -⟩ := h
  obtain ⟨cursor, assembly, faults, events⟩ := s
  cases outer with
  | nil => cases hlength
  | cons p around =>
    obtain ⟨b, hb, hleft⟩ := hshows.leaveGroup
    have hclose : closeGroup column ⟨cursor, assembly, faults, events⟩ =
        ⟨behindGroup cursor.next, b, faults, events⟩ := by
      rw [closeGroup, hb]
    rw [hclose]
    refine .inr ⟨p.addGroup g, around, ⟨hfaults, hleft, ?_, Cursor.stops_skipSpace _⟩, fun t => ?_⟩
    · exact Nat.succ.inj hlength
    · rw [hr, completes_close, ← completes_behindGroup, Cursor.rest_next hr]
      constructor
      · rintro ⟨_, _, c₁, ho, hend, hc⟩
        cases ho
        exact ⟨c₁, hend, hc⟩
      · rintro ⟨c₁, hend, hc⟩
        exact ⟨p, around, c₁, rfl, hend, hc⟩

/-- The start of a group, which a limit may forbid in both. -/
theorem continues_openGroup {st : State} {marker : Option Logical} {length : Nat}
    (h : st.Sees g outer) (ha : Opening.at? st.session.cursor.rest = some (marker, length)) :
    Continues settings fields (openGroup settings marker length st) st.session.cursor.rest g
      outer := by
  obtain ⟨hfaults, hshows, hlength, hstops⟩ := h
  have hgroup : ∀ t, Completes settings fields st.session.cursor.rest g outer t ↔
      outer.length < settings.maxDepth ∧ g.groups.length < settings.maxGroups ∧
        Completes settings fields (st.session.cursor.rest.drop length)
          { logical := marker.getD .and } (g :: outer) t :=
    fun t => completes_group (groupStart_of_at? ha) hstops
  have hroom : st.Full settings ↔
      settings.maxDepth < outer.length + 1 ∨ settings.maxGroups ≤ g.groups.length := by
    rw [Full, hlength, hshows.current]
  by_cases hfull : st.Full settings
  · obtain ⟨f, -, he⟩ := openGroup_of_full marker length hfull
    rw [he]
    refine .inl ⟨by simp [refuse, Session.report, Session.move], fun t hc => ?_⟩
    obtain ⟨hdeep, hlimit, -⟩ := (hgroup t).1 hc
    rcases hroom.1 hfull with hfull | hfull <;> omega
  · obtain ⟨b, hb, hentered⟩ := hshows.enterGroup (marker.getD .and)
    rw [openGroup_of_not_full marker length hfull hb]
    refine .inr ⟨_, _, ⟨hfaults, hentered, congrArg Nat.succ hlength, Cursor.stops_skipSpace _⟩,
      fun t => ?_⟩
    rw [hgroup, ← completes_of_spaces (Cursor.spaces_skipSpace _), Cursor.rest_advance]
    rw [hroom, not_or, Nat.not_lt, Nat.not_le] at hfull
    exact ⟨fun hc => hc.2.2, fun hc => ⟨hfull.1, hfull.2, hc⟩⟩

/-- Reading a field keeps what the text can be completed to, or it records a fault. -/
theorem continues_readItem {st : State} {x : Char} {xs : List Char} (h : st.Sees g outer)
    (hr : st.session.cursor.rest = x :: xs) (hx : x ≠ ')') (ha : Opening.at? (x :: xs) = none) :
    Continues settings fields ⟨readItem settings fields st.session, st.openings⟩
      st.session.cursor.rest g outer := by
  obtain ⟨hfaults, hshows, hlength, hstops⟩ := h
  have hpair := fun t => @completes_pair settings fields g t outer x xs (hr ▸ hstops) hx ha
  -- a field that the grammar allows here is the one that is read
  have hread : ∀ t, Completes settings fields st.session.cursor.rest g outer t →
      ∃ u g', readPair settings fields st.session = .ok () u ∧ u.faults = #[] ∧
        u.assembly.Shows g' outer none ∧
        Completes settings fields u.cursor.rest g' outer t := fun t hc => by
    rw [hr, hpair] at hc
    obtain ⟨field, vs, c₁, hp, hnew, hlimit, hc⟩ := hc
    obtain ⟨u, hu, hrest, hf, hs⟩ := readPair_of_pair (hr ▸ hp) hnew hlimit hshows hstops
    exact ⟨u, _, hu, hf.trans hfaults, hs, hrest ▸ hc⟩
  rw [readItem]
  split
  · next u hu =>
    by_cases hf : u.faults = #[]
    · obtain ⟨field, vs, hp, hnew, hlimit, hs⟩ := pair_of_readPair hu hf hshows hstops
      refine .inr ⟨_, outer, ⟨hf, hs, hlength, Cursor.stops_skipSpace _⟩, fun t => ?_⟩
      show _ ↔ Completes settings fields u.cursor.skipSpace.rest _ outer t
      rw [← completes_of_spaces (Cursor.spaces_skipSpace _)]
      constructor
      · intro hc
        obtain ⟨u', g', hu', -, hs', hc⟩ := hread t hc
        cases hu.symm.trans hu'
        rwa [(List.cons.inj (hs.groups.symm.trans hs'.groups)).1]
      · intro hc
        rw [hr] at hp ⊢
        exact (hpair t).2 ⟨field, vs, _, hp, hnew, hlimit, hc⟩
    · refine .inl ⟨hf, fun t hc => ?_⟩
      obtain ⟨u', _, hu', hf', -⟩ := hread t hc
      cases hu.symm.trans hu'
      exact hf hf'
  · next d u hu =>
    refine .inl ⟨by simp [abandon], fun t hc => ?_⟩
    obtain ⟨u', _, hu', -⟩ := hread t hc
    cases hu.symm.trans hu'

/-- **Reading an item keeps what the text can be completed to**, or finds a fault where it cannot be
completed. -/
theorem continues_step? {st st' : State} (hstep : step? settings fields st = some st')
    (h : st.Sees g outer) : Continues settings fields st' st.session.cursor.rest g outer := by
  obtain ⟨s, openings⟩ := st
  cases item_of_step? hstep with
  | @drop column _ hr ho =>
    cases ho
    obtain ⟨d, hd⟩ := faults_dropGroup column s
    refine .inl ⟨by simp [hd], fun t hc => ?_⟩
    rw [hr, completes_nil] at hc
    rw [hc.1] at h
    exact absurd h.openings (by simp)
  | stray hr ho =>
    cases ho
    obtain ⟨d, hd⟩ := faults_skipStrayEnd s
    refine .inl ⟨by simp [hd], fun t hc => ?_⟩
    rw [hr, completes_close] at hc
    obtain ⟨p, around, -, rfl, -⟩ := hc
    exact absurd h.openings (by simp)
  | close hr ho =>
    cases ho
    exact continues_closeGroup h hr
  | group ha => exact continues_openGroup h ha
  | field hr hx ha => exact continues_readItem h hr hx (hr ▸ ha)

/-! ## All items

The induction is on the run.  When nothing is left of the text, the demand says that the tree is the
one under construction. -/

/-- A condition is made only of a session without faults. -/
theorem faults_of_ofSession {s : Session} {c : Condition}
    (h : Condition.ofSession fields s = .ok c) : s.faults = #[] := by
  rw [Condition.ofSession] at h
  split at h
  · next hf => simpa using hf
  · cases h

/-- The condition is about the fields that were given. -/
theorem fields_of_ofSession {s : Session} {c : Condition}
    (h : Condition.ofSession fields s = .ok c) : c.fields = fields := by
  rw [Condition.ofSession] at h
  split at h
  · split at h <;> cases h
    rfl
  · cases h

/-- **Reading to the end gives the tree to which the text can be completed**, and there is one only
if no fault is found. -/
theorem ofSession_run {st : State} (h : st.Sees g outer) :
    Condition.ofSession fields (run settings fields st) = .ok ⟨fields, t⟩ ↔
      Completes settings fields st.session.cursor.rest g outer t := by
  fun_induction run settings fields st generalizing g outer with
  | case1 st next hstep ih =>
    rcases continues_step? hstep h with ⟨hf, hn⟩ | ⟨g', outer', h', hc⟩
    · constructor
      · exact fun hok => absurd (faults_of_ofSession hok) (faults_ne_of_run settings fields hf)
      · exact fun hc => absurd hc (hn t)
    · rw [hc, ih h']
  | case2 st hstep =>
    obtain ⟨hr, ho⟩ := nil_of_step? hstep
    obtain ⟨hfaults, hshows, hlength, -⟩ := h
    rw [ho, eq_comm, List.length_nil, List.length_eq_zero_iff] at hlength
    cases hlength
    rw [assertFinished_of_step? hstep hshows.length, Condition.ofSession,
      if_pos (by rw [hfaults]; rfl), hshows.finish, hr, completes_nil]
    constructor
    · intro hok
      cases hok
      exact ⟨rfl, rfl⟩
    · rintro ⟨-, rfl⟩
      rfl

/-! ## Whole conditions

A `*` in front of the first item belongs to the group that starts there, if one does, and to the
root otherwise.  The grammar says this with a condition on the text behind the `*`, reading by
looking ahead. -/

/-- The first state sees the root and no other group. -/
theorem sees_root {c : Cursor} (root : Group) (hc : Stops Unicode.isSpace c.rest) :
    Sees ⟨⟨c, { root }, #[], #[]⟩, []⟩ root [] :=
  ⟨rfl, Assembly.shows_new root, rfl, hc⟩

/-- A `*` that does not start a group is the one in front of the items. -/
theorem at?_star_eq_none_iff :
    Opening.at? ('*' :: cs) = none ↔ ∀ c₁, ¬Gaps cs ('(' :: c₁) := by
  constructor
  · intro ha c₁ gaps
    obtain ⟨_, _, ha', -⟩ := (GroupStart.or gaps).at?
    rw [ha] at ha'
    cases ha'
  · intro hn
    cases ha : Opening.at? ('*' :: cs) with
    | none => rfl
    | some found => exact absurd (gaps_of_at? ha).2 (hn _)

/-- No items start with a `*` that starts no group. -/
theorem not_items_star {depth : Nat} {rest : List Char} (ha : Opening.at? ('*' :: cs) = none)
    (hr : rest.head? ≠ some '*') : ¬Items false settings fields depth ('*' :: cs) rest g t := by
  intro hitems
  rcases hitems.inversion ((stops_cons ..).2 rfl) with ⟨rfl, -⟩ | ⟨_, _, _, hp, -⟩ |
    ⟨_, _, _, _, _, hstart, -⟩
  · exact hr rfl
  · exact absurd (by simp) hp.not_mem
  · obtain ⟨_, _, ha', -⟩ := hstart.at?
    rw [ha] at ha'
    cases ha'

/-- Without a `*` in front of them, the items of a condition are added to an AND group. -/
theorem conditionText_and_iff (h : ∀ c₁, Spaces cs ('*' :: c₁) → ∃ c₂, Gaps c₁ ('(' :: c₂)) :
    ConditionText false settings fields cs t ↔ Completes settings fields cs {} [] t := by
  rw [completes_root]
  constructor
  · intro htext
    cases htext with
    | and items => exact items
    | or spaces noGroup =>
      obtain ⟨c₂, gaps⟩ := h _ spaces
      exact absurd gaps (noGroup c₂)
  · exact .and

/-- With a `*` in front of them, they are added to an OR group. -/
theorem conditionText_or_iff {c₁ : List Char} (hs : Spaces cs ('*' :: c₁))
    (hn : ∀ c₂, ¬Gaps c₁ ('(' :: c₂)) :
    ConditionText false settings fields cs t ↔
      Completes settings fields c₁ { logical := .or } [] t := by
  rw [completes_root]
  constructor
  · intro htext
    cases htext with
    | and items =>
      have hitems := items.dropWhile (stops_nil _)
      rw [← hs.eq_dropWhile ((stops_cons ..).2 rfl)] at hitems
      exact absurd hitems (not_items_star (at?_star_eq_none_iff.2 hn) (by simp))
    | or spaces _ items =>
      have he := spaces.eq_dropWhile ((stops_cons ..).2 rfl)
      rw [← hs.eq_dropWhile ((stops_cons ..).2 rfl)] at he
      rwa [← (List.cons.inj he).2]
  · exact .or hs hn

/-- **A text is read as the tree that it denotes**, and is rejected if it denotes none. -/
theorem ofSession_start (text : String) :
    Condition.ofSession fields (run settings fields (start text)) = .ok ⟨fields, t⟩ ↔
      ConditionText false settings fields text.toList t := by
  have hspaces : Spaces text.toList (Cursor.start text).skipSpace.rest :=
    (Cursor.start text).spaces_skipSpace
  have hstops := (Cursor.start text).stops_skipSpace
  rw [start]
  generalize (Cursor.start text).skipSpace = c at hspaces hstops
  split
  · next hor =>
    rw [Bool.and_eq_true, decide_eq_true_eq, Option.isNone_iff_eq_none] at hor
    obtain ⟨c₁, hc₁⟩ := List.head?_eq_some_iff.1 hor.1
    have ha : Opening.at? ('*' :: c₁) = none := hc₁ ▸ hor.2
    rw [hc₁] at hspaces
    refine (ofSession_run (sees_root { logical := .or } (Cursor.stops_skipSpace _))).trans ?_
    rw [← completes_of_spaces (Cursor.spaces_skipSpace _), Cursor.rest_next hc₁,
      conditionText_or_iff hspaces (at?_star_eq_none_iff.1 ha)]
  · next hand =>
    rw [Bool.and_eq_true, decide_eq_true_eq, Option.isNone_iff_eq_none] at hand
    refine (ofSession_run (sees_root {} hstops)).trans ?_
    rw [← completes_of_spaces hspaces, conditionText_and_iff fun c₁ spaces => ?_]
    have he := spaces.eq_dropWhile ((stops_cons ..).2 rfl)
    rw [hspaces.dropWhile_eq, dropWhile_of_stops hstops] at he
    rw [← he] at hand
    refine Classical.byContradiction fun hn => hand ⟨rfl, at?_star_eq_none_iff.2 fun c₂ gaps => ?_⟩
    exact hn ⟨c₂, gaps⟩

end State

end Criteria
