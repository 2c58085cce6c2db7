import Criteria.Proofs.Bytes.Text
import Criteria.Proofs.Rollback

/-!
# Reading moves on

The items of a condition are read in rounds: a round reads one item of a level, and if this is a
group, all that stands in it.  Every round takes characters off the text, whatever goes wrong in it,
and so does every value of a field; so reading comes to its end.

That reading ends is known from its definition.  What is added here is how it gets there: no round
stands still, so a text of so many characters has at most as many rounds on each level, and a loop
that reads items or values one by one could be written with this text as its measure.  The critical
rounds are those of items that are wrong.  A field that cannot be read is skipped, and this takes
something off the text because a field does not start with a `)`; and a `)` outside of all groups is
skipped itself.

## What is here

* `Cursor.Precedes` — one place lies behind another one, with something between them.
* `Scanner.Advances` — what the reader reads has at least one character; `Advances.bind` and
  `Forward.bind_advances` derive this for a composed reader.
* `State.LevelOver`, `State.levelOver_iff` — where the items of a level end.
* `State.Round`, `State.Rounds` — the rounds of a level, and what several of them lead to.
* `State.rounds_advance` — every round and every value moves on, and the rounds of a level lead to
  its end.

Reading keeps a stack of open groups and knows no levels.  A round of a level is found in it as a
single step that leaves the stack as it is, or as a step that opens a group, the steps inside, and a
step that ends it.
-/

set_option autoImplicit false

namespace Criteria

/-! ## Places

A place precedes another one if there is something in between, which is more than to be in front of
it. -/

namespace Cursor

variable {a b c : Cursor}

/-- The place `b` lies behind the place `a`, and there is something between them. -/
structure Precedes (a b : Cursor) : Prop where
  reaches : a.Reaches b
  offset : a.offset < b.offset

/-- A later place with less text behind it comes behind something. -/
theorem Reaches.precedes (h : a.Reaches b) (hl : b.rest.length < a.rest.length) :
    a.Precedes b := by
  obtain ⟨front, hrest, hoffset, -⟩ := reaches_iff.1 h
  have hne : utf8Length front ≠ 0 := fun hz => by
    rw [hrest, Bytes.utf8Length_eq_zero_iff.1 hz] at hl
    exact Nat.lt_irrefl _ hl
  exact ⟨h, by omega⟩

/-- Less text is left behind a later place. -/
theorem Precedes.length_lt (h : a.Precedes b) : b.rest.length < a.rest.length := by
  obtain ⟨front, hrest, hoffset, -⟩ := reaches_iff.1 h.reaches
  have hoffset' := h.offset
  have hne : front ≠ [] := fun hn => by
    rw [hoffset, hn] at hoffset'
    exact Nat.lt_irrefl _ hoffset'
  have := List.length_pos_iff.2 hne
  rw [hrest, List.length_append]
  omega

theorem Precedes.trans_reaches (h : a.Precedes b) (k : b.Reaches c) : a.Precedes c :=
  (h.reaches.trans k).precedes (Nat.lt_of_le_of_lt k.length_le h.length_lt)

end Cursor

/-! ## Readers

A composed reader moves on if one of its parts does and no other one goes back. -/

namespace Scanner

variable {α β : Type} {x : Scanner α} {f : α → Scanner β}

/-- Whatever the reader reads has at least one character. -/
def Advances (x : Scanner α) : Prop :=
  ∀ (c d : Cursor) (a : α), x c = .ok a d → d.rest.length < c.rest.length

/-- A composed reader moves on if its first part does and the second one does not move back. -/
theorem Advances.bind (hx : x.Advances) (hf : ∀ a, (f a).Forward) : (x >>= f).Advances := by
  intro c d b h
  obtain ⟨a, mid, hread, h⟩ := ok_of_bind h
  exact Nat.lt_of_le_of_lt (reaches_of_ok (hf a) h).length_le (hx _ _ _ hread)

/-- A composed reader moves on if its second part does and the first one does not move back. -/
theorem Forward.bind_advances (hx : x.Forward) (hf : ∀ a, (f a).Advances) :
    (x >>= f).Advances := by
  intro c d b h
  obtain ⟨a, mid, hread, h⟩ := ok_of_bind h
  exact Nat.lt_of_lt_of_le (hf a _ _ _ h) (reaches_of_ok hx hread).length_le

theorem Advances.map {g : α → β} (hx : x.Advances) : Advances (EStateM.map g x) := by
  intro c d b h
  obtain ⟨a, hread, -⟩ := ok_of_map h
  exact hx _ _ _ hread

end Scanner

/-- A text has at least one character, or its quotes. -/
theorem Literal.advances_read (bound : Bool) : (read bound).Advances := by
  intro c d l h
  cases literalText_of_read h with
  | bare nonempty plain text =>
    have := List.length_pos_iff.2 nonempty
    rw [text, List.length_append]
    omega
  | quoted line text =>
    rw [text]
    simp only [List.length_cons, List.length_append]
    omega

namespace Form

theorem advances_readRange : readRange.Advances :=
  forward_readOpeningBracket.bind_advances fun _ => Scanner.Forward.skipBlanks.bind_advances
    fun _ => (Literal.advances_read true).bind fun _ => Scanner.Forward.skipBlanks.bind fun _ =>
      (Scanner.Forward.expect "~").bind fun _ => Scanner.Forward.skipBlanks.bind fun _ =>
        (Literal.forward_read true).bind fun _ => forward_readClosingBracket.bind fun _ => .pure _

theorem advances_readPlain (isRange : Bool) : (readPlain isRange).Advances := by
  refine (Scanner.Forward.accept "!").bind_advances fun _ => ?_
  cases isRange
  · exact (Literal.advances_read false).bind fun _ => .pure _
  · exact advances_readRange.bind fun _ => .pure _

theorem advances_readComparison : readComparison.Advances :=
  forward_readOperator.bind_advances fun _ => Scanner.Forward.skipBlanks.bind_advances fun _ =>
    (Literal.advances_read false).bind fun _ => .pure _

theorem advances_readPattern : readPattern.Advances :=
  forward_readMatcher.bind_advances fun _ => Scanner.Forward.skipBlanks.bind_advances fun _ =>
    (Literal.advances_read false).bind fun _ => .pure _

/-- A value has at least one character, whatever its form. -/
theorem advances_read : read.Advances := by
  intro c d form h
  rw [read] at h
  split at h
  · exact advances_readComparison.map c d form h
  · exact advances_readPattern.map c d form h
  · exact advances_readPlain true c d form h
  · exact advances_readPlain false c d form h

end Form

namespace Parser

variable {field : Field} {s t : Session}

/-- A value has at least one character, taken by its field or not. -/
theorem length_lt_of_readEntry {bare : Bool} (h : readEntry field s = .ok bare t) :
    t.cursor.rest.length < s.cursor.rest.length := by
  obtain ⟨_, _, ⟨⟩, h⟩ := ok_of_bind h
  obtain ⟨form, u, hscan, h⟩ := ok_of_bind h
  have hform := Form.advances_read _ _ _ (cursor_of_scan hscan)
  split at h
  · obtain ⟨_, _, hedit, ⟨⟩⟩ := ok_of_bind h
    rwa [cursor_of_edit hedit]
  · next ds _ =>
    rw [bind_of_ok (report_eq ds u)] at h
    cases h
    exact hform

/-- Reading a value and what follows it moves on, also behind the last value of a field. -/
theorem precedes_of_readStep {more : Bool} (h : readStep field s = .ok more t) :
    s.cursor.Precedes t.cursor := by
  refine (forward_of_ok (forward_readStep field) h).precedes ?_
  obtain ⟨bare, u, hentry, hscan⟩ := ok_of_bind h
  have hbehind := Scanner.reaches_of_ok (forward_readSeparator bare) (cursor_of_scan hscan)
  exact Nat.lt_of_le_of_lt hbehind.length_le (length_lt_of_readEntry hentry)

end Parser

namespace State

variable {settings : Settings} {fields : FieldSet} {st st' mid last : State}

/-! ## Items

No item goes back.  One step can stay where it is, which is that at the end of the text, in a group
that was never closed. -/

/-- The start of a group is passed, also if it is refused. -/
theorem reaches_openGroup (settings : Settings) (marker : Option Logical) (length : Nat)
    (st : State) :
    st.session.cursor.Reaches (openGroup settings marker length st).session.cursor := by
  obtain ⟨⟨cursor, assembly, faults, events⟩, openings⟩ := st
  have hrefuse (d : Diagnostic) (a : Assembly) :
      cursor.Reaches (refuse d ⟨cursor.advance length, a, faults, events⟩).cursor :=
    .trans (.advance length cursor) (reaches_refuse d _)
  rw [openGroup]
  split
  · exact hrefuse _ _
  · split
    · exact hrefuse _ _
    · split
      · exact .trans (.advance length cursor) (.skipSpace _)
      · exact hrefuse _ _

/-- A field is passed, or skipped. -/
theorem reaches_readItem (settings : Settings) (fields : FieldSet) (s : Session) :
    s.cursor.Reaches (readItem settings fields s).cursor := by
  have hpair := forward_readPair settings fields
  cases h : readPair settings fields s with
  | ok _ t =>
    rw [readItem_of_ok h]
    exact (Parser.forward_of_ok hpair h).trans (.skipSpace _)
  | error d t =>
    rw [readItem_of_error h]
    exact (Parser.forward_of_error hpair h).trans (.trans (.advance ..) (.skipSpace _))

/-- No item leads back. -/
theorem reaches_step? (h : step? settings fields st = some st') :
    st.session.cursor.Reaches st'.session.cursor := by
  cases item_of_step? h with
  | drop => exact reaches_dropGroup _ _
  | stray => exact .trans (.next _) (reaches_skipStrayEnd _)
  | close => exact .trans (.next _) (reaches_closeGroup _ _)
  | group => exact reaches_openGroup _ _ _ _
  | field => exact reaches_readItem _ _ _

/-- An item that ends no group takes characters off the text. -/
theorem precedes_of_step? (h : step? settings fields st = some st')
    (ho : st.openings.length ≤ st'.openings.length) :
    st.session.cursor.Precedes st'.session.cursor := by
  refine (reaches_step? h).precedes ?_
  have hmeasure := measure_step?_lt h
  rw [measure, measure] at hmeasure
  omega

/-! ## The end of a level -/

/-- The items of a level are over: reading on, where that is possible, ends the group around
them. -/
def LevelOver (settings : Settings) (fields : FieldSet) (st : State) : Prop :=
  ∀ st', step? settings fields st = some st' → st'.openings.length < st.openings.length

/-- **The items of a level end at the end of the text**, or in front of the `)` of the group around
them. -/
theorem levelOver_iff : LevelOver settings fields st ↔ st.session.cursor.rest = [] ∨
    st.openings ≠ [] ∧ st.session.cursor.rest.head? = some ')' := by
  constructor
  · intro h
    cases hstep : step? settings fields st with
    | none => exact .inl (nil_of_step? hstep).1
    | some st' =>
      have hlt := h st' hstep
      rcases openings_of_step? hstep with ⟨column, ho, hr | ⟨cs, hr⟩⟩ | ⟨-, -, ho | ⟨column, ho⟩⟩
      · exact .inl hr
      · exact .inr ⟨by simp [ho], by simp [hr]⟩
      · rw [ho] at hlt
        exact absurd hlt (Nat.lt_irrefl _)
      · rw [ho, List.length_cons] at hlt
        omega
  · intro h st' hstep
    rcases openings_of_step? hstep with ⟨column, ho, -⟩ | ⟨hne, hinside, -⟩
    · rw [ho]
      exact Nat.lt_succ_self _
    · rcases h with hr | ⟨ho, hr⟩
      · exact absurd hr hne
      · exact absurd hr (hinside.resolve_left ho)

/-! ## Rounds

A round of a group has inside it the rounds of the level below, so the induction is on what is left
of the text. -/

/-- One round of a level: an item that starts no group, or starts one that a limit forbids, or a
group that is entered, with all that is read inside it up to the end of its items, and its end. -/
inductive Round (settings : Settings) (fields : FieldSet) (st : State) : State → Prop
  | single {st' : State} (item : step? settings fields st = some st')
      (level : st'.openings = st.openings) : Round settings fields st st'
  | group {column : Nat} {entered last st' : State}
      (enter : step? settings fields st = some entered)
      (opened : entered.openings = column :: st.openings)
      (inside : ReadsInside settings fields entered last)
      (level : last.openings = entered.openings) (ended : LevelOver settings fields last)
      (leave : step? settings fields last = some st') : Round settings fields st st'

/-- The states that several rounds of a level lead to. -/
inductive Rounds (settings : Settings) (fields : FieldSet) (st : State) : State → Prop
  | start : Rounds settings fields st st
  | next {mid st' : State} (before : Rounds settings fields st mid)
      (round : Round settings fields mid st') : Rounds settings fields st st'

/-- Inside a group reading does not go back. -/
theorem ReadsInside.reaches (h : ReadsInside settings fields st st') :
    st.session.cursor.Reaches st'.session.cursor := by
  induction h with
  | start => exact .refl _
  | step _ item _ ih => exact ih.trans (reaches_step? item)

/-- Reading on from inside a group is the same as from its start. -/
theorem ReadsInside.run_eq (h : ReadsInside settings fields st st') :
    run settings fields st = run settings fields st' := by
  induction h with
  | start => rfl
  | step _ item _ ih => rw [ih, run_of_step? item]

namespace Round

/-- **A round moves on**, whichever item is read in it. -/
theorem precedes (h : Round settings fields st st') :
    st.session.cursor.Precedes st'.session.cursor := by
  cases h with
  | single item level => exact precedes_of_step? item (Nat.le_of_eq (congrArg _ level.symm))
  | group enter opened inside _ _ leave =>
    have henter := precedes_of_step? enter (by rw [opened]; exact Nat.le_succ _)
    exact henter.trans_reaches (inside.reaches.trans (reaches_step? leave))

/-- A round stays at its level. -/
theorem openings_eq (h : Round settings fields st st') : st'.openings = st.openings := by
  cases h with
  | single _ level => exact level
  | group _ opened _ level ended leave =>
    have hlt := ended _ leave
    rcases openings_of_step? leave with ⟨column, ho, -⟩ | ⟨-, -, ho | ⟨column, ho⟩⟩
    · rw [level, opened] at ho
      exact (List.cons.inj ho).2.symm
    · rw [ho] at hlt
      exact absurd hlt (Nat.lt_irrefl _)
    · rw [ho, List.length_cons] at hlt
      omega

/-- Reading on behind a round is the same as in front of it. -/
theorem run_eq (h : Round settings fields st st') :
    run settings fields st = run settings fields st' := by
  cases h with
  | single item _ => exact run_of_step? item
  | group enter _ inside _ _ leave =>
    rw [run_of_step? enter, inside.run_eq, run_of_step? leave]

end Round

/-- No group is open at the start. -/
theorem openings_start (text : String) : (start text).openings = [] := by
  rw [start]
  split <;> rfl

/-- Where the items of a level are not over, a round can be read to its end. -/
theorem exists_round (h : ¬LevelOver settings fields st) :
    ∃ st', Round settings fields st st' := by
  rw [levelOver_iff, not_or] at h
  cases hstep : step? settings fields st with
  | none => exact absurd (nil_of_step? hstep).1 h.1
  | some entered =>
    rcases openings_of_step? hstep with ⟨column, ho, hr | ⟨cs, hr⟩⟩ | ⟨-, -, ho | ⟨column, ho⟩⟩
    · exact absurd hr h.1
    · exact absurd ⟨by simp [ho], by simp [hr]⟩ h.2
    · exact ⟨entered, .single hstep ho⟩
    · -- a group is entered, and reading from inside it comes to its end
      obtain ⟨last, inside, level, hrest⟩ := exists_end_of_readsInside ho .start
      have hlevel : last.openings = column :: st.openings := level.trans ho
      have hover : LevelOver settings fields last := levelOver_iff.2 <| hrest.imp_right
        fun ⟨cs, hr⟩ => ⟨by simp [hlevel], by simp [hr]⟩
      obtain ⟨st', hleave⟩ : ∃ st', step? settings fields last = some st' := by
        obtain ⟨s, openings⟩ := last
        cases hlevel
        rcases hrest with hr | ⟨cs, hr⟩
        · exact ⟨_, step?_drop hr column⟩
        · exact ⟨_, step?_close hr column⟩
      exact ⟨st', .group hstep ho inside level hover hleave⟩

/-- **The rounds of a level lead to its end**, since there are only finitely many characters that
they can take off the text. -/
theorem Rounds.exists_last (h : Rounds settings fields st mid) :
    ∃ last, Rounds settings fields st last ∧ LevelOver settings fields last ∧
      last.openings = mid.openings ∧ run settings fields mid = run settings fields last := by
  induction hn : mid.session.cursor.rest.length using Nat.strongRecOn generalizing mid with
  | ind n ih =>
    by_cases hover : LevelOver settings fields mid
    · exact ⟨mid, h, hover, rfl, rfl⟩
    · obtain ⟨next, hround⟩ := exists_round hover
      obtain ⟨last, hlast, hend, hopenings, hrun⟩ :=
        ih _ (hn ▸ hround.precedes.length_lt) (h.next hround) rfl
      exact ⟨last, hlast, hend, hopenings.trans hround.openings_eq, hround.run_eq.trans hrun⟩

/-- **Reading ends, because every round and every value moves on.**

The rounds outside all groups lead to the end of the text, and that is where reading it ends.  In
front of any item: the items of the level at hand are over at the end of the text and, inside a
group, in front of a `)`, and nowhere else; the rounds of the level lead there; and every round
moves on, be it that of a field, of a group or of what cannot be read.  So does every value of a
field together with what follows it. -/
theorem rounds_advance (settings : Settings) (fields : FieldSet) :
    (∀ text, ∃ last, Rounds settings fields (start text) last ∧ last.openings = [] ∧
      last.session.cursor.rest = [] ∧
      run settings fields (start text) = last.assertFinished) ∧
    (∀ st, (LevelOver settings fields st ↔ st.session.cursor.rest = [] ∨
        st.openings ≠ [] ∧ st.session.cursor.rest.head? = some ')') ∧
      (∃ last, Rounds settings fields st last ∧ LevelOver settings fields last ∧
        last.openings = st.openings) ∧
      ∀ st', Round settings fields st st' → st.session.cursor.Precedes st'.session.cursor) ∧
    ∀ field s more t, Parser.readStep field s = .ok more t → s.cursor.Precedes t.cursor := by
  refine ⟨fun text => ?_, fun st => ⟨levelOver_iff, ?_, fun _ => Round.precedes⟩,
    fun _ _ _ _ => Parser.precedes_of_readStep⟩
  · obtain ⟨last, hrounds, hover, hopenings, hrun⟩ :=
      Rounds.exists_last (.start : Rounds settings fields (start text) _)
    have hnone : last.openings = [] := hopenings.trans (openings_start text)
    have hend : step? settings fields last = none := Option.eq_none_iff_forall_ne_some.2
      fun st' hst' => by
        have hlt := hover st' hst'
        rw [hnone] at hlt
        exact absurd hlt (Nat.not_lt_zero _)
    exact ⟨last, hrounds, hnone, (nil_of_step? hend).1, hrun.trans (run_of_end hend)⟩
  · obtain ⟨last, hrounds, hover, hopenings, -⟩ :=
      Rounds.exists_last (.start : Rounds settings fields st _)
    exact ⟨last, hrounds, hover, hopenings⟩

/-- A group that is never closed, with a value that is missing in it. -/
theorem rounds_advance_sample : ∃ st', Round {} .sample (start "(name: a, ; x") st' ∧
    (start "(name: a, ; x").session.cursor.Precedes st'.session.cursor := by
  obtain ⟨-, hrounds, -⟩ := rounds_advance {} .sample
  obtain ⟨hover, -, hround⟩ := hrounds (start "(name: a, ; x")
  obtain ⟨st', h⟩ := exists_round fun hended => absurd (hover.1 hended) (by decide +kernel)
  exact ⟨st', h, hround st' h⟩

end State
end Criteria
