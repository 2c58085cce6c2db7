import Criteria.Proofs.Grammar.Items
import Criteria.Proofs.Reading.Passing
import Criteria.Proofs.Tree

/-!
# Skipping ends where reading ends

Skipping counts parentheses and quotes and knows nothing of fields and values.  Still it finds the
end of every field and of every group that can be read: from the same place on, both end at the same
place.

Recovery has to find the end of a field or a group that could not be read, and it would be wrong to
have it end elsewhere than reading.  It does not read, so this is no matter of course: a parenthesis
in a text in quotes, a `;` behind a group, or a doubled quote could mislead it.  What is shown is
that it is not misled by anything that can be read.  Of what cannot be read nothing is said, since
reading has no end to compare with.

## What is here

* `Cursor.skipGroups` — skipping from inside some groups.
* `State.Clean`, `State.clean_of_step?` — what reading an item without a fault does.
* `State.ReadsInside`, `State.ReadsBody` — the states inside a group, and groups that are read up to
  their end.
* `State.skip_eq_read` — skipping a field or the body of a group ends where reading it ends.

A group is passed item by item.  The invariant is that skipping the rest of the group from the next
item is skipping it from the present one; inside of nested groups skipping has to get out of so many
more, and `Cursor.skipGroups` counts them.
-/

set_option autoImplicit false

namespace Criteria

open Grammar

/-! ## Groups

Skipping goes on behind whatever is passed, one parenthesis deeper behind a `(` and one less behind
a `)`.  A `;` inside of a group is passed like any other character. -/

namespace Cursor

/-- Skips the rest of a group, from inside `depth` groups in it. -/
def skipGroups (depth : Nat) (c : Cursor) : Cursor :=
  c.advance (Recovery.bodyLength false depth 0 c.rest)

variable {c d : Cursor} {depth : Nat} {cs : List Char}

theorem skipGroups_zero (c : Cursor) : c.skipGroups 0 = c.skipBody := rfl

/-- Skipping goes on behind what is passed. -/
theorem Passes.skipGroups_eq (h : c.Passes d) (depth : Nat) :
    c.skipGroups depth = d.skipGroups depth :=
  h.advance_eq Recovery.counts_bodyLength depth

/-- Skipping goes on behind a character that is counted. -/
theorem skipGroups_next {x : Char} {depth' : Nat} (hr : c.rest = x :: cs)
    (hx : Recovery.bodyLength false depth 0 (x :: cs) =
      Recovery.bodyLength false depth' (0 + 1) cs) :
    c.skipGroups depth = c.next.skipGroups depth' := by
  rw [skipGroups, skipGroups, hr, hx, Recovery.counts_bodyLength.add, rest_next hr]
  rfl

/-- Behind a `(` there is one more group to get out of. -/
theorem skipGroups_open (hr : c.rest = '(' :: cs) :
    c.skipGroups depth = c.next.skipGroups (depth + 1) :=
  skipGroups_next hr rfl

/-- Behind a `)` there is one less. -/
theorem skipGroups_close (hr : c.rest = ')' :: cs) :
    c.skipGroups (depth + 1) = c.next.skipGroups depth :=
  skipGroups_next hr rfl

theorem skipGroups_semicolon (hr : c.rest = ';' :: cs) :
    c.skipGroups depth = c.next.skipGroups depth :=
  skipGroups_next hr rfl

/-- The `)` of the group itself is where skipping ends. -/
theorem skipBody_close (hr : c.rest = ')' :: cs) : c.skipBody = c.next := by
  rw [skipBody, hr]
  rfl

theorem skipGroups_skipTerminator (c : Cursor) (depth : Nat) :
    c.skipTerminator.skipGroups depth = c.skipGroups depth := by
  rw [c.passes_skipBlanks.skipGroups_eq, skipTerminator]
  split
  · next hr => exact (skipGroups_semicolon hr).symm
  · rfl

/-- What may follow the `)` of a group is passed. -/
theorem skipGroups_behindGroup (c : Cursor) (depth : Nat) :
    (State.behindGroup c).skipGroups depth = c.skipGroups depth := by
  rw [State.behindGroup, ← (passes_skipSpace _).skipGroups_eq, skipGroups_skipTerminator,
    ← (passes_skipSpace _).skipGroups_eq]

/-- Two places that reading comes to are the same if the same text is left. -/
theorem Reaches.eq_of_rest {a b : Cursor} (ha : c.Reaches a) (hb : c.Reaches b)
    (hr : a.rest = b.rest) : a = b := by
  obtain ⟨front, hfront, -⟩ := reaches_iff.1 ha
  rw [ha.eq_advance hfront, hb.eq_advance (hr ▸ hfront)]

end Cursor

/-- Behind a text that is passed there is a place that is passed to. -/
theorem Recovery.Passed.exists_passes {c : Cursor} {rest : List Char} (h : Passed c.rest rest) :
    ∃ d, c.Passes d ∧ d.rest = rest := by
  obtain ⟨front, hr, -⟩ := counts_bodyLength.passed 0 0 h
  have hd : (c.advance front.length).rest = rest := by
    rw [Cursor.rest_advance, hr, List.drop_left]
  exact ⟨c.advance front.length, ⟨.advance .., hd ▸ h⟩, hd⟩

/-- The start of a group is passed up to its parenthesis. -/
theorem Grammar.GroupStart.passed {cs rest : List Char} {logical : Logical}
    (h : GroupStart cs rest logical) : Recovery.Passed cs ('(' :: rest) := by
  have hgap : ∀ c, Text.isGap c = true → Recovery.isOrdinary c = true := fun _ hc =>
    Text.isOrdinary_of_isSpace (Text.isSpace_of_isGap hc)
  cases h with
  | or gaps => exact .ordinary rfl (.of_run hgap gaps)
  | and gaps => exact .ordinary rfl (.of_run hgap gaps)
  | bare gaps => exact .of_run hgap gaps

/-- The start of a group leads one group further in. -/
theorem Cursor.skipGroups_of_at? {c : Cursor} {marker : Option Logical} {length : Nat}
    (h : Opening.at? c.rest = some (marker, length)) (depth : Nat) :
    c.skipGroups depth = (c.advance length).skipGroups (depth + 1) := by
  obtain ⟨d, hpasses, hd⟩ := (groupStart_of_at? h).passed.exists_passes
  have hnext : d.next = c.advance length :=
    (hpasses.reaches.trans (.next d)).eq_of_rest (.advance ..) (by rw [rest_next hd, rest_advance])
  rw [hpasses.skipGroups_eq, skipGroups_open hd, hnext]

/-! ## Fields

A field is passed up to its end, and both reading and skipping take a `;` there and leave a `)`. -/

/-- In front of the end of a field, skipping and reading do the same. -/
theorem Cursor.skipTerminator_eq_skipPair {c : Cursor} (h : FieldEnds c.rest) :
    c.skipTerminator = c.skipPair := by
  have hblanks : c.skipBlanks = c := skipWhile_of_stops h.stops_isBlank
  rw [skipTerminator, hblanks, skipPair]
  generalize hc : c.rest = cs at h
  cases cs with
  | nil => rfl
  | cons x cs => rcases h x rfl with rfl | rfl <;> rfl

/-- Skipping a field that can be read ends where reading it ends. -/
theorem Parser.skipPair_of_readField {settings : Settings} {fields : FieldSet} {s t : Session}
    (h : readField settings fields s = .ok () t) : s.cursor.skipPair = t.cursor := by
  obtain ⟨e, hpasses, hends, ht⟩ := exists_passes_of_readField h
  rw [hpasses.skipPair_eq, ht, Cursor.skipTerminator_eq_skipPair hends]

namespace State

variable {settings : Settings} {fields : FieldSet} {s t : Session} {st st' : State}

theorem readField_of_readPair (h : readPair settings fields s = .ok () t) :
    Parser.readField settings fields s = .ok () t := by
  obtain ⟨_, _, ⟨⟩, h⟩ := ok_of_bind h
  split at h
  · cases h
  · exact h

/-- A field that can be read is passed in skipping a group. -/
theorem skipGroups_of_readPair (h : readPair settings fields s = .ok () t) (depth : Nat) :
    t.cursor.skipGroups depth = s.cursor.skipGroups depth := by
  obtain ⟨e, hpasses, -, ht⟩ := Parser.exists_passes_of_readField (readField_of_readPair h)
  rw [ht, Cursor.skipGroups_skipTerminator, ← hpasses.skipGroups_eq]

/-! ## Items without a fault

Three sorts of items can be read without a fault, and each of them leads to a place that is passed
to. -/

/-- A fault that is recorded changes the faults. -/
theorem false_of_push {faults : Array Diagnostic} {d : Diagnostic} (h : faults.push d = faults) :
    False := by
  simpa using congrArg Array.size h

/-- What reading an item without a fault does to the place and to the groups that are open. -/
inductive Clean (settings : Settings) (fields : FieldSet) (st st' : State) : Prop
  | close {column : Nat} {cs : List Char} (rest : st.session.cursor.rest = ')' :: cs)
      (openings : st.openings = column :: st'.openings)
      (cursor : st'.session.cursor = behindGroup st.session.cursor.next) :
      Clean settings fields st st'
  | group {marker : Option Logical} {length : Nat}
      (start : Opening.at? st.session.cursor.rest = some (marker, length))
      (openings : st'.openings = st.session.cursor.column :: st.openings)
      (cursor : st'.session.cursor = (st.session.cursor.advance length).skipSpace) :
      Clean settings fields st st'
  | pair {t : Session} (noGroup : Opening.at? st.session.cursor.rest = none)
      (read : readPair settings fields st.session = .ok () t)
      (openings : st'.openings = st.openings)
      (cursor : st'.session.cursor = t.cursor.skipSpace) : Clean settings fields st st'

/-- A group that starts without a fault is entered. -/
theorem clean_openGroup {marker : Option Logical} {length : Nat}
    (ha : Opening.at? st.session.cursor.rest = some (marker, length))
    (hf : (openGroup settings marker length st).session.faults = st.session.faults) :
    Clean settings fields st (openGroup settings marker length st) := by
  obtain ⟨⟨cursor, assembly, faults, events⟩, openings⟩ := st
  rw [openGroup] at hf ⊢
  split at hf
  · exact (false_of_push hf).elim
  · next hdeep =>
    rw [if_neg hdeep]
    split at hf
    · exact (false_of_push hf).elim
    · next hmany =>
      rw [if_neg hmany]
      split at hf
      · exact .group ha rfl rfl
      · exact (false_of_push hf).elim

/-- A field without a fault is read. -/
theorem ok_of_faults_readItem (hf : (readItem settings fields s).faults = s.faults) :
    ∃ t, readPair settings fields s = .ok () t := by
  cases h : readPair settings fields s with
  | ok _ t => exact ⟨t, rfl⟩
  | error d t =>
    rw [readItem_of_error h] at hf
    have hlength := (Parser.faults_of_error (keeps_readPair settings fields) h).length_le
    have hpush : (t.faults.push d).size = s.faults.size := congrArg Array.size hf
    rw [Array.size_push] at hpush
    simp only [Array.length_toList] at hlength
    omega

theorem cursor_closeGroup (column : Nat) (s : Session) :
    (closeGroup column s).cursor = behindGroup s.cursor.next := by
  rw [closeGroup.eq_def]
  dsimp only
  split <;> rfl

/-- An item that is read without a fault closes a group, opens one or is a field. -/
theorem clean_of_step? (h : step? settings fields st = some st')
    (hf : st'.session.faults = st.session.faults) : Clean settings fields st st' := by
  cases item_of_step? h with
  | @drop column =>
    obtain ⟨d, hd⟩ := faults_dropGroup column st.session
    exact (false_of_push (hd.symm.trans hf)).elim
  | stray => exact (false_of_push hf).elim
  | @close column _ _ hr ho => exact .close hr ho (cursor_closeGroup column st.session)
  | group ha => exact clean_openGroup ha hf
  | field _ _ ha =>
    obtain ⟨t, ht⟩ := ok_of_faults_readItem hf
    exact .pair ha ht rfl (by rw [readItem_of_ok ht]; rfl)

/-- **Skipping the rest of a group ends at the same place in front of an item and behind it.** -/
theorem Clean.skipGroups_eq (h : Clean settings fields st st') {outer : Nat}
    (ho : outer ≤ st.openings.length) (ho' : outer ≤ st'.openings.length) :
    st'.session.cursor.skipGroups (st'.openings.length - outer) =
      st.session.cursor.skipGroups (st.openings.length - outer) := by
  cases h with
  | close rest openings cursor =>
    rw [cursor, openings, List.length_cons, Nat.succ_sub ho', Cursor.skipGroups_close rest,
      Cursor.skipGroups_behindGroup]
  | group start openings cursor =>
    rw [cursor, openings, List.length_cons, Nat.succ_sub ho, Cursor.skipGroups_of_at? start,
      ← (Cursor.passes_skipSpace _).skipGroups_eq]
  | pair _ read openings cursor =>
    rw [cursor, openings, ← (Cursor.passes_skipSpace _).skipGroups_eq, skipGroups_of_readPair read]

/-! ## Inside a group

A run inside of a group is the part of a run during which the group stays open.  Skipping from its
start is skipping from any of its states, since no item is missed in between. -/

/-- The states that reading comes to from `st` on while the groups that are open there stay open. -/
inductive ReadsInside (settings : Settings) (fields : FieldSet) (st : State) : State → Prop
  | start : ReadsInside settings fields st st
  | step {mid st' : State} (before : ReadsInside settings fields st mid)
      (item : step? settings fields mid = some st') (inside : st.openings <:+ st'.openings) :
      ReadsInside settings fields st st'

/-- The groups that were open stay open. -/
theorem ReadsInside.suffix (h : ReadsInside settings fields st st') :
    st.openings <:+ st'.openings := by
  cases h with
  | start => exact List.suffix_rfl
  | step _ _ inside => exact inside

/-- What is between two equal lists of faults, each a part of the next one, is equal to both. -/
theorem faults_eq_of_prefix {a b c : Array Diagnostic} (hab : a.toList <+: b.toList)
    (hbc : b.toList <+: c.toList) (hca : c = a) : b = a := by
  rw [hca] at hbc
  exact Array.toList_inj.1 (hbc.eq_of_length_le hab.length_le)

/-- Inside a group faults are kept. -/
theorem ReadsInside.faults (h : ReadsInside settings fields st st') :
    st.session.faults.toList <+: st'.session.faults.toList := by
  induction h with
  | start => exact List.prefix_rfl
  | step _ item _ ih => exact ih.trans (faults_step? settings fields item)

/-- From any place inside a group, skipping ends where it ends from the place at its start. -/
theorem ReadsInside.skipGroups_eq (h : ReadsInside settings fields st st')
    (hf : st'.session.faults = st.session.faults) :
    st'.session.cursor.skipGroups (st'.openings.length - st.openings.length) =
      st.session.cursor.skipBody := by
  induction h with
  | start => rw [Nat.sub_self, Cursor.skipGroups_zero]
  | @step mid st' before item inside ih =>
    -- no fault is taken back, so there is none before the last item either
    have hmid := faults_eq_of_prefix before.faults (faults_step? settings fields item) hf
    have hclean := clean_of_step? item (hf.trans hmid.symm)
    rw [hclean.skipGroups_eq before.suffix.length_le inside.length_le, ih hmid]

/-- A group starts at `st` and is read without a fault up to its `)`: its body starts at the first
place, and the second one is behind its `)`. -/
inductive ReadsBody (settings : Settings) (fields : FieldSet) (st : State) : Cursor → Cursor → Prop
  | mk {marker : Option Logical} {length : Nat} {entered last : State} {cs : List Char}
      (start : Opening.at? st.session.cursor.rest = some (marker, length))
      (enter : step? settings fields st = some entered)
      (inside : ReadsInside settings fields entered last)
      (openings : last.openings = entered.openings)
      (rest : last.session.cursor.rest = ')' :: cs)
      (faults : last.session.faults = st.session.faults) :
      ReadsBody settings fields st (st.session.cursor.advance length) last.session.cursor.next

theorem skipBody_of_readsBody {p q : Cursor} (h : ReadsBody settings fields st p q) :
    p.skipBody = q := by
  obtain ⟨start, enter, inside, openings, rest, faults⟩ := h
  have hentered := faults_eq_of_prefix (faults_step? settings fields enter) inside.faults faults
  have hbody := inside.skipGroups_eq (faults.trans hentered.symm)
  rw [openings, Nat.sub_self, Cursor.skipGroups_zero, Cursor.skipBody_close rest] at hbody
  cases clean_of_step? enter hentered with
  | @close _ cs hr =>
    have hnone : Opening.at? (')' :: cs) = none := rfl
    cases (hr ▸ start).symm.trans hnone
  | group hstart _ cursor =>
    cases start.symm.trans hstart
    rw [cursor, ← Cursor.skipGroups_zero, ← (Cursor.passes_skipSpace _).skipGroups_eq] at hbody
    exact hbody.symm
  | pair noGroup => cases start.symm.trans noGroup

/-- **Skipping ends where reading ends.**  Where a field can be read, skipping from its start ends
behind it, at the place where reading ends; where the body of a group can be read without a fault,
skipping from its start ends behind the `)` of the group. -/
theorem skip_eq_read (settings : Settings) (fields : FieldSet) :
    (∀ s t : Session, Parser.readField settings fields s = .ok () t →
        s.cursor.skipPair = t.cursor) ∧
      ∀ (st : State) (p q : Cursor), ReadsBody settings fields st p q → p.skipBody = q :=
  ⟨fun _ _ => Parser.skipPair_of_readField, fun _ _ _ => skipBody_of_readsBody⟩

/-- With signs in quotes, in a field and in a group. -/
theorem skip_eq_read_sample :
    (∃ t, Parser.readField {} .sample { cursor := .start "name: \"a;)\", b; id: 1" } = .ok () t ∧
        (Cursor.start "name: \"a;)\", b; id: 1").skipPair = t.cursor) ∧
      ∃ p q, ReadsBody {} .sample (start "& (name: \")\") ; id: 1") p q ∧ p.skipBody = q := by
  obtain ⟨hfield, hbody⟩ := skip_eq_read {} .sample
  refine ⟨?_, ?_⟩
  · obtain ⟨_, t, ht⟩ := exists_ok_of_run' (x := Parser.readField {} .sample)
      (s := { cursor := .start "name: \"a;)\", b; id: 1" }) (by decide +kernel)
    exact ⟨t, ht, hfield _ t ht⟩
  · have hstep : ∀ {st : State}, (step? {} .sample st).isSome = true →
        step? {} .sample st = some ((step? {} .sample st).getD st) := fun h => by
      obtain ⟨st', hst'⟩ := Option.isSome_iff_exists.1 h
      rw [hst', Option.getD_some]
    have hempty : ∀ {a b : Array Diagnostic}, a.size = 0 → b.size = 0 → a = b := fun ha hb => by
      rw [Array.eq_empty_of_size_eq_zero ha, Array.eq_empty_of_size_eq_zero hb]
    have hreads := @ReadsBody.mk {} .sample (start "& (name: \")\") ; id: 1") (some .and) 3 _ _
      " ; id: 1".toList (by decide +kernel) (hstep (by decide +kernel))
      (.step .start (hstep (by decide +kernel)) (by decide +kernel)) (by decide +kernel)
      (by decide +kernel) (hempty (by decide +kernel) (by decide +kernel))
    exact ⟨_, _, hreads, hbody _ _ _ hreads⟩

end State
end Criteria
