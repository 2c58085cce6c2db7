import Criteria.Proofs.Reading.Columns
import Criteria.Proofs.Reading.Pair

/-!
# The books that reading keeps

Reading keeps the tree under construction, the columns of the open groups and the faults side by
side.  Here they are shown to agree with each other before every item, whatever went wrong in the
items before.

Three books could get out of step.  There is the stack of groups that are open in the text, and the
stack of groups that are under construction; there is the field that is open in the tree, which
every way out of a field has to close or to give up; and there are the faults, which have to come in
the order of the text although some are found late.  An item can end in many ways, so the books are
compared item by item: `State.Sound` is what holds between any two items, and every sort of item
keeps it.

Inside a field the books are not in order, and need not be.  There `Session.Collects` says what is
true instead: the field is open with some entries, and the tree without it is the one in front of
the field.  If the field cannot be read to its end, `Session.Fails` is what is left of this, and
giving up the field brings the books in order again.

## What is here

* `Session.Ordered` — the faults stand in their order in front of the cursor.
* `Session.Collects`, `Session.Fails` — the session inside a field, and at a fault that ends it.
* `State.ends_readPair` — what reading a field with its values does.
* `State.Sound`, `State.sound_step?` — the state before an item, and behind it.
* `State.Reachable` — the states that reading a text comes to.

What is proved by following the readers from their start says nothing about the middle of a field.
`Parser.AtValue` names the sessions there, one in front of each value, and `readField_of_atValue`
says that reading the field does come to them.
-/

set_option autoImplicit false

namespace Criteria

/-! ## Faults in their order

Every fault lies between the place where its reader started and the place where reading goes on, so
appending it keeps the order. -/

namespace Session

variable {text : String} {s t : Session} {ds : List Diagnostic}

/-- The session is on its way through the text, and the faults stand in their order in front of the
cursor. -/
structure Ordered (text : String) (s : Session) : Prop where
  reaches : (Cursor.start text).Reaches s.cursor
  faults : Ascending 1 s.cursor.column s.faults.toList

/-- Further on, faults between here and there may have been added. -/
theorem Ordered.extend (h : s.Ordered text) (hr : s.cursor.Reaches t.cursor)
    (hf : t.faults.toList = s.faults.toList ++ ds)
    (hd : Ascending s.cursor.column t.cursor.column ds) : t.Ordered text :=
  ⟨h.reaches.trans hr, hf ▸ h.faults.append hd h.reaches.column_le hr.column_le⟩

/-- Moving on without a fault keeps the order. -/
theorem Ordered.move (h : s.Ordered text) (hr : s.cursor.Reaches t.cursor)
    (hf : t.faults = s.faults) : t.Ordered text :=
  h.extend hr (by rw [hf, List.append_nil]) .nil

/-- A fault between here and the next place may be added. -/
theorem Ordered.push {d : Diagnostic} (h : s.Ordered text) (hr : s.cursor.Reaches t.cursor)
    (hf : t.faults = s.faults.push d) (hd : d.Between s.cursor.column t.cursor.column) :
    t.Ordered text :=
  h.extend hr (by rw [hf, Array.toList_push]) (.singleton hd)

/-- A fault of what was read between `s` and `t` can be reported where it started. -/
theorem Ordered.fail {f : Fault} (h : s.Ordered text) (hr : s.cursor.Reaches t.cursor)
    (ht : t.faults = s.faults) (hf : f.DueToText) :
    ((t.report (f.inColumn s.cursor.column)).move Cursor.skipPair).Ordered text :=
  have hreach := hr.trans (.advance (Recovery.pairLength false 0 0 t.cursor.rest) t.cursor)
  h.push (t := (t.report (f.inColumn s.cursor.column)).move Cursor.skipPair) hreach
    (congrArg (Array.push · (f.inColumn s.cursor.column)) ht)
    (.inColumn hf (Nat.le_refl _) hreach.column_le)

/-- In the session the entries of the field `name` are collected; `a` is the tree without it. -/
structure Collects (text : String) (a : Assembly) (name : String) (s : Session) : Prop where
  assembly : ∃ bag, s.assembly = { a with openField? := some (name, bag) }
  ordered : s.Ordered text

/-- The fault `d` ends a field in the session; `a` is the tree without this field. -/
structure Fails (text : String) (a : Assembly) (d : Diagnostic) (s : Session) : Prop where
  assembly : s.assembly.abandonField = a.abandonField
  ordered : ((s.report d).move Cursor.skipPair).Ordered text

end Session

open Session

/-! ## Operations on the tree

The operations are described here by what they do to the assembly as it is kept, with its root
apart, since the tree without the open field has to be named; `Shows` names the groups only. -/

namespace Assembly

variable {a : Assembly} {name : String}

/-- A change of the current group leaves the open field alone. -/
@[simp] theorem openField?_updateCurrent (f : Group → Group) (a : Assembly) :
    (updateCurrent f a).openField? = a.openField? := by
  obtain ⟨root, _ | ⟨g, frames⟩, o⟩ := a <;> rfl

/-- A change of the current group opens or closes none. -/
@[simp] theorem depth_updateCurrent (f : Group → Group) (a : Assembly) :
    (updateCurrent f a).depth = a.depth := by
  obtain ⟨root, _ | ⟨g, frames⟩, o⟩ := a <;> rfl

/-- Where no field is open, there is none to give up. -/
theorem abandonField_eq (ha : a.openField? = none) : a.abandonField = a := by
  obtain ⟨root, frames, o⟩ := a
  cases ha
  rfl

/-- A field is opened unless its group has it already. -/
theorem openField_eq (ha : a.openField? = none) (name : String) :
    openField name a =
      if a.current.fields.contains name then .error (.duplicateField name) a
      else .ok () { a with openField? := some (name, {}) } := by
  obtain ⟨root, frames, o⟩ := a
  cases ha
  rfl

/-- An open field becomes part of the current group. -/
theorem closeField_eq (ha : a.openField? = none) (bag : Bag) :
    closeField { a with openField? := some (name, bag) } =
      .ok () (a.updateCurrent (·.addField name bag)) := by
  obtain ⟨root, frames, o⟩ := a
  cases ha
  rfl

theorem enterGroup_eq (ha : a.openField? = none) (l : Logical) :
    enterGroup l a = .ok () { a with frames := { logical := l } :: a.frames } := by
  obtain ⟨root, frames, o⟩ := a
  cases ha
  rfl

/-- A group is left for its parent. -/
theorem exists_of_leaveGroup {n : Nat} (ha : a.openField? = none) (hd : a.depth = n + 1) :
    ∃ b, leaveGroup a = .ok () b ∧ b.openField? = none ∧ b.depth = n := by
  obtain ⟨root, _ | ⟨g, frames⟩, o⟩ := a
  · cases hd
  · cases ha
    exact ⟨_, rfl, by simp, (depth_updateCurrent ..).trans (Nat.succ.inj hd)⟩

theorem exists_of_discardGroup {n : Nat} (hd : a.depth = n + 1) :
    ∃ b, discardGroup a = .ok () b ∧ b.openField? = none ∧ b.depth = n := by
  obtain ⟨root, _ | ⟨g, frames⟩, o⟩ := a
  · cases hd
  · exact ⟨_, rfl, rfl, Nat.succ.inj hd⟩

/-- A tree without open groups and fields is finished. -/
theorem exists_of_finish (ha : a.openField? = none) (hd : a.depth = 0) :
    ∃ root, a.finish = .ok root := by
  obtain ⟨root, _ | ⟨g, frames⟩, o⟩ := a
  · cases ha
    exact ⟨root, rfl⟩
  · cases hd

end Assembly

/-! ## Fields

From value to value the open field collects its entries.  A value that its field refuses adds none,
and the faults that it adds are in order because its texts are. -/

namespace Parser

variable {settings : Settings} {fields : FieldSet} {field : Field} {text : String}
  {a : Assembly} {name : String} {s : Session}

/-- What a reader of texts reads is behind the faults recorded before, and so is a fault of it. -/
theorem ends_scan {α : Type} {x : Scanner α} (hf : x.Forward) (hr : x.Raises)
    (hs : s.Ordered text) :
    Ends (scan x) s
      (fun v t => x s.cursor = .ok v t.cursor ∧ t.assembly = s.assembly ∧ t.faults = s.faults ∧
        t.Ordered text)
      fun d t => t.assembly = s.assembly ∧ ((t.report d).move Cursor.skipPair).Ordered text := by
  obtain ⟨cursor, assembly, faults, events⟩ := s
  have hreach := hf cursor
  rw [Ends, scan]
  cases hx : x cursor with
  | ok v c =>
    rw [hx] at hreach
    exact ⟨rfl, rfl, rfl, hs.move hreach rfl⟩
  | error d c =>
    rw [hx] at hreach
    exact ⟨rfl, hs.push (hreach.trans (.advance ..)) rfl (hr _ _ _ hx)⟩

/-- Faults that do not end the reading are recorded in their order. -/
theorem report_eq (ds : List Diagnostic) (s : Session) :
    report ds s = .ok () ⟨s.cursor, s.assembly, s.faults ++ ds, s.events⟩ := by
  show EStateM.Result.ok () (ds.foldl (fun s d => s.report d) s) = _
  induction ds generalizing s with
  | nil => simp
  | cons d ds ih =>
    rw [List.foldl_cons, ih]
    simp [Session.report]

/-- A value is collected, or refused with its faults in order, or ends the field. -/
theorem ends_readEntry (h : s.Collects text a name) :
    Ends (readEntry field) s (fun _ t => t.Collects text a name) (Fails text a) := by
  obtain ⟨⟨bag, hbag⟩, hs⟩ := h
  refine .bind_of_ok rfl ?_
  refine ((ends_scan Form.forward_read Form.raises_read hs).mono (fun _ _ h => h) ?_).bind ?_
  · rintro d t ⟨ha, ht⟩
    exact ⟨by rw [ha, hbag]; rfl, ht⟩
  rintro form t ⟨hread, ha, hf, ht⟩
  rw [hbag] at ha
  split
  · next entry _ =>
    have hadd : Assembly.add entry t.assembly =
        .ok () { a with openField? := some (name, bag.add entry) } := by rw [ha]; rfl
    exact .bind_of_ok (edit_of_ok _ hadd) ⟨⟨_, rfl⟩, ht.move (.refl _) rfl⟩
  · next ds hds =>
    have hlies := Form.ascending_of_resolve hds (Form.lies_of_read hread)
    have hreach := Scanner.reaches_of_ok Form.forward_read hread
    exact .bind_of_ok (report_eq ds t) ⟨⟨bag, ha⟩, hs.extend hreach (by simp [hf]) hlies⟩

/-- What follows a value leaves the entries alone, and may end the field. -/
theorem ends_readStep (h : s.Collects text a name) :
    Ends (readStep field) s (fun _ t => t.Collects text a name) (Fails text a) := by
  refine (ends_readEntry h).bind fun bare t ⟨⟨bag, hbag⟩, ht⟩ => ?_
  refine (ends_scan (forward_readSeparator bare) (raises_readSeparator bare) ht).mono ?_ ?_
  · rintro _ u ⟨-, ha, -, hu⟩
    exact ⟨⟨bag, ha.trans hbag⟩, hu⟩
  · rintro d u ⟨ha, hu⟩
    exact ⟨by rw [ha, hbag]; rfl, hu⟩

/-- **The values of a field are collected**, or the field is given up. -/
theorem ends_readEntries (count : Nat) (h : s.Collects text a name) :
    Ends (readEntries settings field count) s (fun _ t => t.Collects text a name)
      (Fails text a) := by
  unfold Ends
  fun_induction readEntries settings field count s with
  | case1 s =>
    obtain ⟨⟨bag, hbag⟩, hs⟩ := h
    exact ⟨by rw [hbag]; rfl, hs.fail (.refl _) rfl trivial⟩
  | case2 count s _ t hstep ih => exact ih ((ends_readStep h).of_ok hstep)
  | case3 count s _ t hstep => exact (ends_readStep h).of_ok hstep
  | case4 count s _ d t hstep => exact (ends_readStep h).of_error hstep

/-! ### From the name to the end

The field is opened behind its name, so a field that its group has already is refused there, before
any of its values. -/

/-- A field with its values is added to the current group, or leaves nothing behind.  Its name was
read between `s` and `t`. -/
theorem ends_readValues {t : Session} (hs : s.Ordered text) (ha : s.assembly.openField? = none)
    (hr : s.cursor.Reaches t.cursor) (hta : t.assembly = s.assembly) (htf : t.faults = s.faults) :
    Ends (readValues settings field s.cursor.column) t
      (fun _ u => (∃ bag, u.assembly = s.assembly.updateCurrent (·.addField field.name bag)) ∧
        u.Ordered text)
      (Fails text s.assembly) := by
  obtain ⟨c, b, faults, events⟩ := t
  cases hta
  cases htf
  have hopen : Ends (edit s.cursor.column (Assembly.openField field.name))
      ⟨c, s.assembly, s.faults, events⟩ (fun _ u => u.Collects text s.assembly field.name)
      (Fails text s.assembly) := by
    rw [Ends, edit, Assembly.openField_eq ha]
    by_cases hn : s.assembly.current.fields.contains field.name = true
    · rw [if_pos hn]
      exact ⟨rfl, hs.fail hr rfl trivial⟩
    · rw [if_neg hn]
      exact ⟨⟨_, rfl⟩, hs.move hr rfl⟩
  refine hopen.bind fun _ u hu => ?_
  refine .bind_of_ok rfl (.bind_of_ok rfl (.bind_of_ok rfl ?_))
  have hv : ((u.log (.readingField field.name)).move Cursor.skipSpace).Collects text s.assembly
      field.name := ⟨hu.assembly, hu.ordered.move (.skipSpace _) rfl⟩
  split
  -- there are no values behind the name
  · obtain ⟨⟨bag, hbag⟩, hs⟩ := hv
    exact ⟨by rw [hbag]; rfl, hs.fail (.refl _) rfl trivial⟩
  · refine (ends_readEntries 0 hv).bind fun _ w hw => ?_
    obtain ⟨⟨bag, hbag⟩, hw⟩ := hw
    have hclose : Assembly.closeField w.assembly = .ok ()
        (s.assembly.updateCurrent (·.addField field.name bag)) := by
      rw [hbag, Assembly.closeField_eq ha]
    exact .bind_of_ok (edit_of_ok _ hclose)
      ⟨⟨bag, rfl⟩, hw.move (Cursor.reaches_skipTerminator _) rfl⟩

/-- **A field with its values is added to the current group, or leaves nothing behind.** -/
theorem ends_readField (hs : s.Ordered text) (ha : s.assembly.openField? = none) :
    Ends (readField settings fields) s
      (fun _ t => (∃ name bag, t.assembly = s.assembly.updateCurrent (·.addField name bag)) ∧
        t.Ordered text)
      (Fails text s.assembly) := by
  refine .bind_of_ok rfl ?_
  have hscan := ends_scan (forward_readToken settings.naming) (raises_readToken _) hs
  refine (hscan.mono (fun _ _ h => h) ?_).bind ?_
  · rintro d u ⟨hu, ht⟩
    exact ⟨by rw [hu], ht⟩
  rintro token u ⟨hread, hua, huf, hu⟩
  have hr := Scanner.reaches_of_ok (forward_readToken _) hread
  split
  · next field _ =>
    exact (ends_readValues hs ha hr hua huf).mono (fun _ _ ⟨⟨bag, hb⟩, ht⟩ => ⟨⟨_, bag, hb⟩, ht⟩)
      fun _ _ h => h
  · exact ⟨by rw [hua], hs.fail hr huf trivial⟩

/-! ### One value after another

The sessions in front of the values are those that the loop over the values goes through. -/

/-- Reading a field from `s` on comes to a value in the session `t`, where the field is open and
`count` values have been read. -/
inductive AtValue (settings : Settings) (fields : FieldSet) (s : Session) :
    Field → Nat → Session → Prop
  | first {token : String} {field : Field} {c : Cursor} {b : Assembly}
      (read : readToken settings.naming s.cursor = .ok token c)
      (found : lookUp fields token settings.naming = some field)
      (opened : Assembly.openField field.name s.assembly = .ok () b)
      (values : c.skipSpace.atFieldEnd = false) :
      AtValue settings fields s field 0
        ⟨c.skipSpace, b, s.faults, s.events.push (.readingField field.name)⟩
  | next {field : Field} {count : Nat} {t u : Session}
      (before : AtValue settings fields s field count t) (limit : count ≠ settings.maxValues)
      (read : readStep field t = .ok true u) : AtValue settings fields s field (count + 1) u

/-- What is left of reading a field whose name stands in the given column, when `count` of its
values have been read: the other values, and the end. -/
def readFurther (settings : Settings) (field : Field) (column count : Nat) : Parser Unit := do
  readEntries settings field count
  edit column Assembly.closeField
  move Cursor.skipTerminator

/-- **Reading a field does come to each of these sessions**, and goes on from there with the values
that are left. -/
theorem readField_of_atValue {count : Nat} {t : Session}
    (h : AtValue settings fields s field count t) :
    readField settings fields s = readFurther settings field s.cursor.column count t := by
  induction h with
  | @first token field c b read found opened values =>
    rw [readField]
    refine (bind_of_ok (here_eq s)).trans ((bind_of_ok (scan_of_ok read)).trans ?_)
    rw [found]
    refine (bind_of_ok (edit_of_ok (s := ⟨c, s.assembly, s.faults, s.events⟩) _ opened)).trans ?_
    show (if c.skipSpace.atFieldEnd = true then _ else _ : Parser Unit) _ = _
    rw [if_neg (by rw [values]; exact Bool.false_ne_true)]
    rfl
  | @next field count t u before limit read ih =>
    exact ih.trans (bind_congr_left (readEntries_of_more limit read))

/-- In front of each value the entries of the field are being collected. -/
theorem collects_of_atValue {count : Nat} {t : Session} (hs : s.Ordered text)
    (ha : s.assembly.openField? = none) (h : AtValue settings fields s field count t) :
    t.Collects text s.assembly field.name := by
  induction h with
  | first read found opened values =>
    rw [Assembly.openField_eq ha] at opened
    split at opened <;> cases opened
    have hr := Scanner.reaches_of_ok (forward_readToken _) read
    exact ⟨⟨_, rfl⟩, hs.move (hr.trans (.skipSpace _)) rfl⟩
  | next _ _ read ih => exact (ends_readStep ih).of_ok read

end Parser

/-! ## Items

One lemma for each sort of item, and one for the first state.  Each follows from what the operations
on the tree do when no field is open, and from where the next item starts. -/

namespace State

variable {settings : Settings} {fields : FieldSet} {text : String} {s : Session} {st st' : State}

/-- No field is open, there is one group under construction for each open group of the text, and the
faults stand in their order in front of the cursor. -/
structure Sound (text : String) (st : State) : Prop where
  closed : st.session.assembly.openField? = none
  level : st.session.assembly.depth = st.openings.length
  ordered : st.session.Ordered text

/-- Outside of all groups of the text the current group is the root. -/
theorem Sound.depth_eq_zero (h : st.Sound text) (ho : st.openings = []) :
    st.session.assembly.depth = 0 := by
  rw [h.level, ho]
  rfl

/-- A field is added to its group or fails, also if a marker stands in its place. -/
theorem ends_readPair (settings : Settings) (fields : FieldSet) (hs : s.Ordered text)
    (ha : s.assembly.openField? = none) :
    Ends (readPair settings fields) s
      (fun _ t => (∃ name bag, t.assembly = s.assembly.updateCurrent (·.addField name bag)) ∧
        t.Ordered text)
      (Fails text s.assembly) := by
  refine .bind_of_ok rfl ?_
  split
  · exact ⟨rfl, hs.fail (.refl _) rfl trivial⟩
  · exact Parser.ends_readField hs ha

/-- The books are in order in front of the first item. -/
theorem sound_start (text : String) : (start text).Sound text := by
  have hspace := Cursor.Reaches.skipSpace (Cursor.start text)
  rw [start]
  split
  · exact ⟨rfl, rfl, hspace.trans (.trans (.next _) (.skipSpace _)), .nil⟩
  · exact ⟨rfl, rfl, hspace, .nil⟩

/-- A group that is entered opens one in both stacks, and one that is refused in neither. -/
theorem sound_openGroup (marker : Option Logical) (length : Nat) (h : st.Sound text) :
    (openGroup settings marker length st).Sound text := by
  by_cases hfull : st.Full settings
  · obtain ⟨f, hf, he⟩ := openGroup_of_full marker length hfull
    have hdue : f.DueToText := by rcases hf with rfl | rfl <;> trivial
    have hreach := Cursor.Reaches.trans (.advance length st.session.cursor)
      (reaches_refuse (f.inColumn st.session.cursor.column) (st.session.move (·.advance length)))
    rw [he]
    exact ⟨h.closed, h.level,
      h.ordered.push hreach rfl (.inColumn hdue (Nat.le_refl _) hreach.column_le)⟩
  · rw [openGroup_of_not_full marker length hfull (Assembly.enterGroup_eq h.closed _)]
    exact ⟨h.closed, congrArg Nat.succ h.level,
      h.ordered.move (.trans (.advance ..) (.skipSpace _)) rfl⟩

/-- The end of a group closes one in both stacks; since no field is open, this is not refused. -/
theorem sound_closeGroup {column : Nat} {openings : List Nat}
    (h : Sound text ⟨s, column :: openings⟩) : Sound text ⟨closeGroup column s, openings⟩ := by
  obtain ⟨cursor, assembly, faults, events⟩ := s
  obtain ⟨hclosed, hlevel, hordered⟩ := h
  obtain ⟨b, hb, hbc, hbl⟩ := Assembly.exists_of_leaveGroup hclosed hlevel
  rw [closeGroup, hb]
  exact ⟨hbc, hbl, hordered.move (.trans (.next _) (reaches_behindGroup _)) rfl⟩

/-- The end of the text closes an open group in both stacks, and records a fault. -/
theorem sound_dropGroup {column : Nat} {openings : List Nat}
    (h : Sound text ⟨s, column :: openings⟩) : Sound text ⟨dropGroup column s, openings⟩ := by
  obtain ⟨cursor, assembly, faults, events⟩ := s
  obtain ⟨hclosed, hlevel, hordered⟩ := h
  obtain ⟨b, hb, hbc, hbl⟩ := Assembly.exists_of_discardGroup hlevel
  rw [dropGroup, hb]
  exact ⟨hbc, hbl, hordered.push (.refl _) rfl
    (.inColumn (f := .unclosedGroup column) trivial (Nat.le_refl _) (Nat.le_refl _))⟩

theorem sound_skipStrayEnd {openings : List Nat} (h : Sound text ⟨s, openings⟩) :
    Sound text ⟨skipStrayEnd s, openings⟩ := by
  have hreach := Cursor.Reaches.trans (.next _) (reaches_skipStrayEnd s)
  exact ⟨h.closed, h.level, h.ordered.push hreach rfl
    (.inColumn (f := .unopenedGroup) trivial (Nat.le_refl _) hreach.column_le)⟩

/-- A field leaves both stacks as they are, added to its group or given up. -/
theorem sound_readItem {openings : List Nat} (h : Sound text ⟨s, openings⟩) :
    Sound text ⟨readItem settings fields s, openings⟩ := by
  have hpair := ends_readPair settings fields h.ordered h.closed
  rw [readItem]
  split
  · next t ht =>
    obtain ⟨⟨name, bag, ha⟩, ht⟩ := hpair.of_ok ht
    refine ⟨?_, ?_, ht.move (.skipSpace _) rfl⟩
    · exact (congrArg Assembly.openField? ha).trans (by simpa using h.closed)
    · exact (congrArg Assembly.depth ha).trans (by simpa using h.level)
  · next d t ht =>
    obtain ⟨ha, ht⟩ := hpair.of_error ht
    rw [Assembly.abandonField_eq h.closed] at ha
    refine ⟨rfl, ?_, ht.move (.skipSpace _) rfl⟩
    exact (congrArg Assembly.depth ha).trans h.level

/-- **Every item leaves the books in order**, whether it could be read or not. -/
theorem sound_step? (hstep : step? settings fields st = some st') (h : st.Sound text) :
    st'.Sound text := by
  obtain ⟨s, openings⟩ := st
  cases item_of_step? hstep with
  | drop _ ho =>
    cases ho
    exact sound_dropGroup h
  | stray _ ho =>
    cases ho
    exact sound_skipStrayEnd h
  | close _ ho =>
    cases ho
    exact sound_closeGroup h
  | group => exact sound_openGroup _ _ h
  | field => exact sound_readItem h

/-! ## Runs

By induction, the books are in order in every state that reading comes to, and so nothing that
reading does to the tree can be refused. -/

/-- The states that reading a text comes to, one before each item and one behind the last. -/
inductive Reachable (settings : Settings) (fields : FieldSet) (text : String) : State → Prop
  | start : Reachable settings fields text (start text)
  | step {st st' : State} (before : Reachable settings fields text st)
      (item : step? settings fields st = some st') : Reachable settings fields text st'

/-- **Between any two items the books are in order.** -/
theorem sound_of_reachable (h : Reachable settings fields text st) : st.Sound text := by
  induction h with
  | start => exact sound_start text
  | step _ item ih => exact sound_step? item ih

/-- What reading does to the tree from the state on is not refused: groups are entered, left and
dropped, entries are added and fields are closed. -/
structure Accepts (settings : Settings) (fields : FieldSet) (st : State) : Prop where
  enter : ∀ l, ∃ b, Assembly.enterGroup l st.session.assembly = .ok () b
  leave : st.openings ≠ [] → ∃ b, Assembly.leaveGroup st.session.assembly = .ok () b
  discard : st.openings ≠ [] → ∃ b, Assembly.discardGroup st.session.assembly = .ok () b
  add : ∀ {field count t}, Parser.AtValue settings fields st.session field count t →
    ∀ c, ∃ b, Assembly.add c t.assembly = .ok () b
  close : ∀ {field count t u}, Parser.AtValue settings fields st.session field count t →
    Parser.readStep field t = .ok false u → ∃ b, Assembly.closeField u.assembly = .ok () b

/-- If the books are in order, the tree takes all that reading can do to it. -/
theorem Sound.accepts (h : st.Sound text) : st.Accepts settings fields where
  enter l := ⟨_, Assembly.enterGroup_eq h.closed l⟩
  leave hne := by
    obtain ⟨column, outer, ho⟩ := List.exists_cons_of_ne_nil hne
    obtain ⟨b, hb, -⟩ := Assembly.exists_of_leaveGroup h.closed (ho ▸ h.level)
    exact ⟨b, hb⟩
  discard hne := by
    obtain ⟨column, outer, ho⟩ := List.exists_cons_of_ne_nil hne
    obtain ⟨b, hb, -⟩ := Assembly.exists_of_discardGroup (ho ▸ h.level)
    exact ⟨b, hb⟩
  add ht c := by
    obtain ⟨bag, hbag⟩ := (Parser.collects_of_atValue h.ordered h.closed ht).assembly
    rw [hbag]
    exact ⟨_, rfl⟩
  close ht hread := by
    obtain ⟨bag, hbag⟩ := ((Parser.ends_readStep
      (Parser.collects_of_atValue h.ordered h.closed ht)).of_ok hread).assembly
    rw [hbag]
    exact ⟨_, rfl⟩

/-- Reading ends in a state behind the last item. -/
theorem exists_reachable_of_run (h : Reachable settings fields text st) :
    ∃ last, Reachable settings fields text last ∧ step? settings fields last = none ∧
      run settings fields st = last.assertFinished := by
  fun_induction run settings fields st with
  | case1 st next hstep ih => exact ih (h.step hstep)
  | case2 st hstep => exact ⟨st, h, hstep, rfl⟩

end State
end Criteria
