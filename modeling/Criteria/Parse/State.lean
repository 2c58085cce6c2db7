import Criteria.Parse.Entry
import Criteria.Text.Opening
import Criteria.Text.Recovery

/-!
# Reading the items of a condition

Reading goes item by item.  An item is the start of a group, the end of a group, or a field with its
values.  A fault ends its item, and reading goes on behind it, so that one run finds all faults.

The groups that are open are a stack, not a recursion: `State.openings` holds the columns in which
they were opened, the innermost first.

## What is here

* `State` — a session and the groups open in it.
* `State.start` — the state before the first item; a `*` that does not start a group is taken off
  the text and makes the root an OR group.
* `State.step?` — reads one item; there is none at the end of the text, outside all groups.
* `State.Full` — a limit forbids a further group: `openGroup_of_full`, `openGroup_of_not_full`.
* `State.Item`, `State.item_of_step?` — the sorts of items, one of which every step reads.
* `State.assertFinished` — reports that reading has stopped inside a group or in front of the end of
  the text.
* `State.run` — reads all items.
* `State.measure_step?` — why this ends: every item takes characters off the text, or ends a group
  at the end of the text.
-/

set_option autoImplicit false

namespace Criteria

/-- A session and the columns of the groups open in it, the innermost first. -/
structure State where
  session : Session
  openings : List Nat := []

namespace State

/-- The state before the first item. -/
def start (text : String) : State :=
  let c := (Cursor.start text).skipSpace
  if c.rest.head? = some '*' && (Opening.at? c.rest).isNone then
    ⟨⟨c.next.skipSpace, Assembly.setRootLogical .or {}, #[], #[]⟩, []⟩
  else ⟨⟨c, {}, #[], #[]⟩, []⟩

/-! ## Items -/

/-- The place of the next item behind a group, over a `;` that may follow it. -/
def behindGroup (c : Cursor) : Cursor :=
  c.skipSpace.skipTerminator.skipSpace

/-- Reports a fault and skips the group that starts at the cursor. -/
def refuse (d : Diagnostic) (s : Session) : Session :=
  (s.report d).move fun c => behindGroup c.skipBody

/-- Enters a group whose start has the given marker and length, unless a limit forbids it. -/
def openGroup (settings : Settings) (marker : Option Logical) (length : Nat) : State → State
  | ⟨⟨cursor, assembly, faults, events⟩, openings⟩ =>
    let column := cursor.column
    let level := openings.length + 1
    let logical := marker.getD .and
    let inside := cursor.advance length
    if settings.maxDepth < level then
      let fault := Fault.tooDeep settings.maxDepth
      ⟨refuse (fault.inColumn column) ⟨inside, assembly, faults, events⟩, openings⟩
    else if settings.maxGroups ≤ assembly.current.groups.length then
      let fault := Fault.tooManyGroups settings.maxGroups
      ⟨refuse (fault.inColumn column) ⟨inside, assembly, faults, events⟩, openings⟩
    else
      match Assembly.enterGroup logical assembly with
      | .ok _ assembly =>
        ⟨⟨inside.skipSpace, assembly, faults, events.push (.enteredGroup logical level)⟩,
          column :: openings⟩
      | .error reason assembly =>
        let fault := Fault.misuse reason
        ⟨refuse (fault.inColumn column) ⟨inside, assembly, faults, events⟩, openings⟩

/-- Leaves the group opened in `column`, at its `)`. -/
def closeGroup (column : Nat) : Session → Session
  | ⟨cursor, assembly, faults, events⟩ =>
    let cursor := behindGroup cursor.next
    match Assembly.leaveGroup assembly with
    | .ok _ assembly => ⟨cursor, assembly, faults, events⟩
    | .error reason assembly =>
      ⟨cursor, assembly, faults.push ((Fault.misuse reason).inColumn column), events⟩

/-- Drops the group opened in `column`, at the end of the text. -/
def dropGroup (column : Nat) : Session → Session
  | ⟨cursor, assembly, faults, events⟩ =>
    let faults := faults.push ((Fault.unclosedGroup column).inColumn cursor.column)
    match Assembly.discardGroup assembly with
    | .ok _ assembly => ⟨cursor, assembly, faults, events⟩
    | .error _ assembly => ⟨cursor, assembly, faults, events⟩

/-- Reports a `)` outside all groups, and skips it. -/
def skipStrayEnd : Session → Session
  | ⟨cursor, assembly, faults, events⟩ =>
    let faults := faults.push (Fault.unopenedGroup.inColumn cursor.column)
    ⟨cursor.next.skipTerminator.skipSpace, assembly, faults, events⟩

/-- Reads a field with its values.  A marker in its place does not belong to any group. -/
def readPair (settings : Settings) (fields : FieldSet) : Parser Unit := do
  let c ← Parser.here
  if c.rest.head? = some '*' || c.rest.head? = some '&' then
    throw (Fault.loneMarker.inColumn c.column)
  else Parser.readField settings fields

/-- Reports the fault that ended a field, drops the field, and skips the rest of it. -/
def abandon (d : Diagnostic) : Session → Session
  | ⟨cursor, assembly, faults, events⟩ =>
    ⟨cursor.skipPair.skipSpace, assembly.abandonField, faults.push d, events.push (.abandoned d)⟩

/-- Reads a field with its values, and skips what cannot be read. -/
def readItem (settings : Settings) (fields : FieldSet) (s : Session) : Session :=
  match readPair settings fields s with
  | .ok _ t => t.move Cursor.skipSpace
  | .error d t => abandon d t

/-- Reads one item.  There is none at the end of the text, outside all groups. -/
def step? (settings : Settings) (fields : FieldSet) (st : State) : Option State :=
  match st.session.cursor.rest, st.openings with
  | [], [] => none
  | [], column :: outer => some ⟨dropGroup column st.session, outer⟩
  | x :: cs, openings =>
    if x = ')' then
      match openings with
      | [] => some ⟨skipStrayEnd st.session, []⟩
      | column :: outer => some ⟨closeGroup column st.session, outer⟩
    else
      match Opening.at? (x :: cs) with
      | some (marker, length) => some (openGroup settings marker length st)
      | none => some ⟨readItem settings fields st.session, openings⟩

/-! ## The end -/

/-- The session behind the last item.  Reading that has stopped inside a group or in front of the
end of the text is a fault. -/
def assertFinished (st : State) : Session :=
  if st.openings.length != 0 || st.session.assembly.depth != 0 || !st.session.cursor.atEnd then
    st.session.report (Fault.unfinished.inColumn st.session.cursor.column)
  else st.session

/-! ## The start of a group -/

/-- A limit forbids a further group in this place. -/
def Full (settings : Settings) (st : State) : Prop :=
  settings.maxDepth < st.openings.length + 1 ∨
    settings.maxGroups ≤ st.session.assembly.current.groups.length

instance (settings : Settings) (st : State) : Decidable (st.Full settings) :=
  inferInstanceAs (Decidable (_ ∨ _))

section Opening

variable {settings : Settings} {st : State} (marker : Option Logical) (length : Nat)

/-- A group that a limit forbids is reported and skipped. -/
theorem openGroup_of_full (h : st.Full settings) :
    ∃ fault : Fault,
      (fault = .tooDeep settings.maxDepth ∨ fault = .tooManyGroups settings.maxGroups) ∧
      openGroup settings marker length st =
        ⟨refuse (fault.inColumn st.session.cursor.column) (st.session.move (·.advance length)),
          st.openings⟩ := by
  obtain ⟨⟨cursor, assembly, faults, events⟩, openings⟩ := st
  rw [openGroup]
  split
  · exact ⟨_, .inl rfl, rfl⟩
  · next hdepth =>
    rw [if_pos (h.resolve_left hdepth)]
    exact ⟨_, .inr rfl, rfl⟩

/-- All other groups are entered, unless this is refused. -/
theorem openGroup_of_not_full {b : Assembly} (h : ¬st.Full settings)
    (hb : Assembly.enterGroup (marker.getD .and) st.session.assembly = .ok () b) :
    openGroup settings marker length st =
      ⟨⟨(st.session.cursor.advance length).skipSpace, b, st.session.faults,
        st.session.events.push (.enteredGroup (marker.getD .and) (st.openings.length + 1))⟩,
        st.session.cursor.column :: st.openings⟩ := by
  obtain ⟨⟨cursor, assembly, faults, events⟩, openings⟩ := st
  rw [openGroup, if_neg fun hdepth => h (.inl hdepth), if_neg fun hgroups => h (.inr hgroups), hb]

end Opening

/-! ## One item of each sort -/

section Step

variable {settings : Settings} {fields : FieldSet} {s : Session} {openings : List Nat} {x : Char}
  {cs : List Char}

theorem step?_end (hr : s.cursor.rest = []) : step? settings fields ⟨s, []⟩ = none := by
  rw [step?.eq_def]
  simp only [hr]

theorem step?_drop (hr : s.cursor.rest = []) (column : Nat) :
    step? settings fields ⟨s, column :: openings⟩ = some ⟨dropGroup column s, openings⟩ := by
  rw [step?.eq_def]
  simp only [hr]

theorem step?_stray (hr : s.cursor.rest = ')' :: cs) :
    step? settings fields ⟨s, []⟩ = some ⟨skipStrayEnd s, []⟩ := by
  rw [step?.eq_def]
  simp only [hr, if_true]

theorem step?_close (hr : s.cursor.rest = ')' :: cs) (column : Nat) :
    step? settings fields ⟨s, column :: openings⟩ = some ⟨closeGroup column s, openings⟩ := by
  rw [step?.eq_def]
  simp only [hr, if_true]

theorem step?_open {marker : Option Logical} {length : Nat} (hr : s.cursor.rest = x :: cs)
    (hx : x ≠ ')') (ha : Opening.at? (x :: cs) = some (marker, length)) :
    step? settings fields ⟨s, openings⟩ =
      some (openGroup settings marker length ⟨s, openings⟩) := by
  rw [step?.eq_def]
  simp only [hr, if_neg hx, ha]

theorem step?_pair (hr : s.cursor.rest = x :: cs) (hx : x ≠ ')')
    (ha : Opening.at? (x :: cs) = none) :
    step? settings fields ⟨s, openings⟩ = some ⟨readItem settings fields s, openings⟩ := by
  rw [step?.eq_def]
  simp only [hr, if_neg hx, ha]

theorem readItem_of_ok {t : Session} (h : readPair settings fields s = .ok () t) :
    readItem settings fields s = t.move Cursor.skipSpace := by
  rw [readItem, h]

theorem readItem_of_error {d : Diagnostic} {t : Session}
    (h : readPair settings fields s = .error d t) : readItem settings fields s = abandon d t := by
  rw [readItem, h]

/-- The sorts of items, and the state behind an item of each sort. -/
inductive Item (settings : Settings) (fields : FieldSet) (st : State) : State → Prop
  | drop {column : Nat} {outer : List Nat} (rest : st.session.cursor.rest = [])
      (openings : st.openings = column :: outer) :
      Item settings fields st ⟨dropGroup column st.session, outer⟩
  | stray {cs : List Char} (rest : st.session.cursor.rest = ')' :: cs)
      (openings : st.openings = []) : Item settings fields st ⟨skipStrayEnd st.session, []⟩
  | close {column : Nat} {outer : List Nat} {cs : List Char}
      (rest : st.session.cursor.rest = ')' :: cs) (openings : st.openings = column :: outer) :
      Item settings fields st ⟨closeGroup column st.session, outer⟩
  | group {marker : Option Logical} {length : Nat}
      (start : Opening.at? st.session.cursor.rest = some (marker, length)) :
      Item settings fields st (openGroup settings marker length st)
  | field {x : Char} {cs : List Char} (rest : st.session.cursor.rest = x :: cs) (inside : x ≠ ')')
      (noGroup : Opening.at? st.session.cursor.rest = none) :
      Item settings fields st ⟨readItem settings fields st.session, st.openings⟩

/-- Every step reads an item of one of these sorts. -/
theorem item_of_step? {st st' : State} (h : step? settings fields st = some st') :
    Item settings fields st st' := by
  obtain ⟨s, openings⟩ := st
  rw [step?.eq_def] at h
  split at h
  · cases h
  · next hr ho =>
    cases h
    exact .drop hr ho
  · next x cs hr =>
    split at h
    · next hx =>
      rw [hx] at hr
      split at h
      · next ho =>
        cases h
        exact .stray hr ho
      · next ho =>
        cases h
        exact .close hr ho
    · next hx =>
      split at h
      · next ha =>
        cases h
        exact .group (hr ▸ ha)
      · next ha =>
        cases h
        exact .field hr hx (hr ▸ ha)

end Step

/-! ## Progress -/

theorem reaches_behindGroup (c : Cursor) : c.Reaches (behindGroup c) :=
  .trans (.trans (.skipSpace c) (Cursor.reaches_skipTerminator _)) (.skipSpace _)

theorem reaches_refuse (d : Diagnostic) (s : Session) :
    s.cursor.Reaches (refuse d s).cursor :=
  .trans (.advance ..) (reaches_behindGroup s.cursor.skipBody)

theorem reaches_closeGroup (column : Nat) (s : Session) :
    s.cursor.next.Reaches (closeGroup column s).cursor := by
  rw [closeGroup.eq_def]
  dsimp only
  split <;> exact reaches_behindGroup _

theorem reaches_dropGroup (column : Nat) (s : Session) :
    s.cursor.Reaches (dropGroup column s).cursor := by
  rw [dropGroup.eq_def]
  dsimp only
  split <;> exact .refl _

theorem reaches_skipStrayEnd (s : Session) : s.cursor.next.Reaches (skipStrayEnd s).cursor :=
  .trans (Cursor.reaches_skipTerminator _) (.skipSpace _)

theorem forward_readPair (settings : Settings) (fields : FieldSet) :
    (readPair settings fields).Forward := by
  refine Parser.Forward.here.bind fun c => ?_
  split
  · exact .throw _
  · exact Parser.forward_readField settings fields

/-- A field takes characters off the text, whether it can be read or not. -/
theorem length_readItem_lt (settings : Settings) (fields : FieldSet) {s : Session} {x : Char}
    {cs : List Char} (hs : s.cursor.rest = x :: cs) (hx : x ≠ ')') :
    (readItem settings fields s).cursor.rest.length < s.cursor.rest.length := by
  rw [readItem]
  split
  · next t h =>
    obtain ⟨c, u, hu, h⟩ := Parser.ok_of_bind h
    cases hu
    have h₁ : t.cursor.rest.length < s.cursor.rest.length := by
      split at h
      · cases h
      · exact Parser.length_lt_of_readField h
    have h₂ := (Cursor.Reaches.skipSpace t.cursor).length_le
    exact Nat.lt_of_le_of_lt h₂ h₁
  · next d t h =>
    have h₁ := Parser.forward_of_error (forward_readPair settings fields) h
    have h₂ := (Cursor.Reaches.skipSpace t.cursor.skipPair).length_le
    refine Nat.lt_of_le_of_lt h₂ ?_
    rcases Nat.lt_or_ge t.cursor.rest.length s.cursor.rest.length with hlt | hge
    · exact Nat.lt_of_le_of_lt (Cursor.Reaches.advance _ t.cursor).length_le hlt
    · have he := h₁.rest_eq hge
      have := Cursor.length_skipPair_lt (he.trans hs) hx
      rwa [he] at this

/-- Twice the number of characters left, and the number of groups open. -/
def measure (st : State) : Nat :=
  2 * st.session.cursor.rest.length + st.openings.length

theorem measure_openGroup_lt (settings : Settings) {marker : Option Logical} {length : Nat}
    {st : State} (h : Opening.at? st.session.cursor.rest = some (marker, length)) :
    (openGroup settings marker length st).measure < st.measure := by
  obtain ⟨⟨cursor, assembly, faults, events⟩, openings⟩ := st
  obtain ⟨hpos, hne⟩ := Opening.length_pos_of_at? h
  have hinside : (cursor.advance length).rest.length < cursor.rest.length := by
    rw [Cursor.rest_advance, List.length_drop]
    have : 0 < cursor.rest.length := List.length_pos_iff.2 hne
    omega
  have hrefuse : ∀ (d : Diagnostic) (a : Assembly),
      (refuse d ⟨cursor.advance length, a, faults, events⟩).cursor.rest.length <
        cursor.rest.length := fun d a =>
    Nat.lt_of_le_of_lt (reaches_refuse d _).length_le hinside
  rw [measure, measure, openGroup]
  dsimp only
  split
  · have := hrefuse ((Fault.tooDeep settings.maxDepth).inColumn cursor.column) assembly
    dsimp only
    omega
  · split
    · have := hrefuse ((Fault.tooManyGroups settings.maxGroups).inColumn cursor.column) assembly
      dsimp only
      omega
    · split
      · have := (Cursor.Reaches.skipSpace (cursor.advance length)).length_le
        simp only [List.length_cons]
        omega
      · next reason a _ =>
        have := hrefuse ((Fault.misuse reason).inColumn cursor.column) a
        dsimp only
        omega

/-- Every item takes characters off the text, or ends a group at the end of the text. -/
theorem measure_step?_lt {settings : Settings} {fields : FieldSet} {st st' : State}
    (h : step? settings fields st = some st') : st'.measure < st.measure := by
  have hnext : ∀ {x cs}, st.session.cursor.rest = x :: cs →
      st.session.cursor.next.rest.length < st.session.cursor.rest.length := fun hr =>
    Cursor.length_next_lt (by simp [hr])
  cases item_of_step? h with
  | @drop column _ hr ho =>
    have := (reaches_dropGroup column st.session).length_le
    simp only [measure, hr, ho, List.length_cons, List.length_nil] at this ⊢
    omega
  | stray hr ho =>
    have h₁ := (reaches_skipStrayEnd st.session).length_le
    have h₂ := hnext hr
    simp only [measure, ho, List.length_nil]
    omega
  | @close column _ _ hr ho =>
    have h₁ := (reaches_closeGroup column st.session).length_le
    have h₂ := hnext hr
    simp only [measure, ho, List.length_cons]
    omega
  | group ha => exact measure_openGroup_lt settings ha
  | field hr hx =>
    have := length_readItem_lt settings fields hr hx
    simp only [measure]
    omega

/-! ## All items -/

/-- Reading stops at the end of the text, outside all groups. -/
theorem nil_of_step? {settings : Settings} {fields : FieldSet} {st : State}
    (h : step? settings fields st = none) : st.session.cursor.rest = [] ∧ st.openings = [] := by
  rw [step?.eq_def] at h
  split at h
  · next hr ho => exact ⟨hr, ho⟩
  · cases h
  · split at h
    · split at h <;> cases h
    · split at h <;> cases h

theorem assertFinished_of_step? {settings : Settings} {fields : FieldSet} {st : State}
    (h : step? settings fields st = none) (hd : st.session.assembly.depth = 0) :
    st.assertFinished = st.session := by
  obtain ⟨hr, ho⟩ := nil_of_step? h
  rw [assertFinished, if_neg (by simp [ho, hd, hr, Cursor.atEnd])]

/-- Reads all items. -/
def run (settings : Settings) (fields : FieldSet) (st : State) : Session :=
  match _h : step? settings fields st with
  | some next => run settings fields next
  | none => st.assertFinished
termination_by st.measure
decreasing_by exact measure_step?_lt _h

theorem run_of_step? {settings : Settings} {fields : FieldSet} {st next : State}
    (h : step? settings fields st = some next) :
    run settings fields st = run settings fields next := by
  rw [run]
  split <;> next hs => cases h.symm.trans hs <;> rfl

theorem run_of_end {settings : Settings} {fields : FieldSet} {st : State}
    (h : step? settings fields st = none) : run settings fields st = st.assertFinished := by
  rw [run]
  split <;> next hs => cases h.symm.trans hs <;> rfl

end State
end Criteria
