import Criteria.Proofs.Skipping

/-!
# What cannot be read leaves nothing behind

A fault can end a field after some of its values, and a group after any number of fields and
subgroups.  The tree under construction is then what it was in front of the field or the group: what
is read inside a group changes nothing below the group.

Reading writes into the tree as it goes, and cannot know whether what it has written will be kept.
For a field this is easy, since its entries are in a slot of their own until it is closed.  A group
is entered at once, with all its fields and subgroups; what protects the tree is that they are in a
group of its own on top of the others, which becomes part of its parent only in the end.  That
nothing else happens meanwhile is an invariant of everything between the start of the group and its
end.

## What is here

* `Assembly.Above` — the groups under construction in one assembly are those of another one, with
  further ones on top.
* `State.above_step?`, `State.ReadsInside.above` — this is kept by an item inside a group, and by
  all items inside a group.
* `State.openings_of_step?` — what an item does to the groups that are open.
* `State.PassesGroup` — a group from its start to the place behind it, with its `Fate`: refused,
  never closed, or closed.
* `State.exists_passesGroup` — every group that starts has a fate.
* `State.assembly_eq_of_rejected` — a field or a group that is not accepted leaves the tree as it
  was.

A group is passed in one of three ways, and there is no fourth: this is `exists_passesGroup`, which
says that a statement about refused, unclosed and closed groups is one about all of them.
-/

set_option autoImplicit false

namespace Criteria

/-! ## Groups on top of others

The operations that are used inside of a group change the topmost one, add another one on top, or
remove it.  Only the last of these could go below, and it does not as long as there is a group on
top. -/

namespace Assembly

variable {base a b : Assembly}

/-- The groups under construction in `base` are under construction in `a` too, unchanged and below
all others. -/
structure Above (base a : Assembly) : Prop where
  root : a.root = base.root
  frames : base.frames <:+ a.frames

namespace Above

/-- With more groups than in `base`, the current group is none of those in `base`. -/
theorem exists_cons (h : base.Above a) (hd : base.depth < a.depth) :
    ∃ g frames, a = ⟨base.root, g :: frames, a.openField?⟩ ∧ base.frames <:+ frames := by
  obtain ⟨root, frames, field?⟩ := a
  obtain ⟨rfl, hs⟩ := h
  cases frames with
  | nil => cases hd
  | cons g frames =>
    refine ⟨g, frames, rfl, (List.suffix_cons_iff.1 hs).resolve_left fun he => ?_⟩
    rw [depth, he] at hd
    exact Nat.lt_irrefl _ hd

/-- With the same number of groups, the assemblies differ in the open field only. -/
theorem eq (h : base.Above a) (hd : a.depth = base.depth)
    (hf : a.openField? = base.openField?) : a = base := by
  obtain ⟨root, frames, field?⟩ := a
  obtain ⟨rfl, hs⟩ := h
  cases hf
  cases hs.eq_of_length hd.symm
  rfl

/-- A change of the current group is a change on top. -/
theorem updateCurrent (h : base.Above a) (hd : base.depth < a.depth) (f : Group → Group) :
    base.Above (a.updateCurrent f) := by
  obtain ⟨g, frames, ha, hs⟩ := h.exists_cons hd
  rw [ha]
  exact ⟨rfl, hs.trans (List.suffix_cons ..)⟩

/-- A group that is entered comes on top. -/
theorem push (h : base.Above a) (g : Group) : base.Above { a with frames := g :: a.frames } :=
  ⟨h.root, h.frames.trans (List.suffix_cons ..)⟩

/-- Dropping a group on top of those in `base`. -/
theorem of_discardGroup (h : base.Above a) (hd : base.depth < a.depth)
    (hb : discardGroup a = .ok () b) : base.Above b := by
  obtain ⟨g, frames, ha, hs⟩ := h.exists_cons hd
  rw [ha] at hb
  cases hb
  exact ⟨rfl, hs⟩

/-- Leaving a group on top of those in `base`.  Its parent is on top of them too. -/
theorem of_leaveGroup (h : base.Above a) (hd : base.depth + 1 < a.depth)
    (hb : leaveGroup a = .ok () b) : base.Above b := by
  obtain ⟨g, frames, ha, hs⟩ := h.exists_cons (Nat.lt_of_succ_lt hd)
  have hframes : base.depth < frames.length := by
    rw [ha] at hd
    exact Nat.lt_of_succ_lt_succ hd
  rw [ha] at hb
  cases hf : a.openField? with
  | some field =>
    rw [hf] at hb
    cases hb
  | none =>
    rw [hf] at hb
    cases hb
    have hrest : base.Above ⟨base.root, frames, none⟩ := ⟨rfl, hs⟩
    exact hrest.updateCurrent hframes _

/-- Leaving the only group on top of those in `base` adds it to the current group of `base`. -/
theorem eq_of_leaveGroup (h : base.Above a) (hd : a.depth = base.depth + 1)
    (ha : a.openField? = none) (hbase : base.openField? = none) (hb : leaveGroup a = .ok () b) :
    ∃ g, b = base.updateCurrent (·.addGroup g) := by
  obtain ⟨g, frames, he, hs⟩ := h.exists_cons (hd ▸ Nat.lt_succ_self _)
  have hframes : frames.length = base.frames.length := by
    rw [he] at hd
    exact Nat.succ.inj hd
  rw [he, ha] at hb
  cases hb
  obtain ⟨root, _, _⟩ := base
  cases hbase
  cases hs.eq_of_length hframes.symm
  exact ⟨g, rfl⟩

end Above
end Assembly

namespace State

variable {settings : Settings} {fields : FieldSet} {text : String} {st st' entered last : State}
  {base : Assembly} {marker : Option Logical} {length : Nat}

/-! ## Items

What is known of the books in front of an item makes all operations succeed, so the tree behind the
item is known. -/

/-- A group that a limit forbids changes neither the groups that are open nor the tree. -/
theorem eq_of_full (marker : Option Logical) (length : Nat) (h : st.Full settings) :
    (openGroup settings marker length st).openings = st.openings ∧
      (openGroup settings marker length st).session.assembly = st.session.assembly := by
  obtain ⟨f, -, he⟩ := openGroup_of_full marker length h
  rw [he]
  obtain ⟨⟨cursor, assembly, faults, events⟩, openings⟩ := st
  exact ⟨rfl, rfl⟩

/-- The end of a group leaves the group. -/
theorem assembly_closeGroup {s : Session} {b : Assembly}
    (h : Assembly.leaveGroup s.assembly = .ok () b) (column : Nat) :
    (closeGroup column s).assembly = b := by
  rw [closeGroup, h]

/-- The end of the text drops the group. -/
theorem assembly_dropGroup {s : Session} {b : Assembly}
    (h : Assembly.discardGroup s.assembly = .ok () b) (column : Nat) :
    (dropGroup column s).assembly = b := by
  rw [dropGroup, h]

/-- A field is added to the current group, or leaves the tree as it was. -/
theorem assembly_readItem (settings : Settings) (fields : FieldSet) (h : st.Sound text) :
    (∃ name bag, (readItem settings fields st.session).assembly =
        st.session.assembly.updateCurrent (·.addField name bag)) ∨
      (readItem settings fields st.session).assembly = st.session.assembly := by
  have hpair := ends_readPair settings fields h.ordered h.closed
  cases hread : readPair settings fields st.session with
  | ok _ t =>
    rw [readItem_of_ok hread]
    exact .inl (hpair.of_ok hread).1
  | error d t =>
    rw [readItem_of_error hread]
    exact .inr ((hpair.of_error hread).assembly.trans (Assembly.abandonField_eq h.closed))

/-- **An item inside a group changes nothing below the group.**  Inside is: there are more groups
open than in `base`, in front of the item and behind it, or it ends such a group at the end of the
text. -/
theorem above_step? (h : st.Sound text) (habove : base.Above st.session.assembly)
    (hd : base.depth < st.openings.length) (hstep : step? settings fields st = some st')
    (hd' : base.depth < st'.openings.length ∨ st.session.cursor.rest = []) :
    base.Above st'.session.assembly := by
  have hlevel := h.level
  rw [← hlevel] at hd
  cases item_of_step? hstep with
  | drop rest openings =>
    rw [openings] at hlevel
    obtain ⟨b, hb, -⟩ := Assembly.exists_of_discardGroup hlevel
    rw [assembly_dropGroup hb]
    exact habove.of_discardGroup hd hb
  | stray rest openings => exact habove
  | close rest openings =>
    rw [openings] at hlevel
    obtain ⟨b, hb, -⟩ := Assembly.exists_of_leaveGroup h.closed hlevel
    rw [assembly_closeGroup hb]
    refine habove.of_leaveGroup ?_ hb
    rw [hlevel]
    exact Nat.succ_lt_succ (hd'.resolve_right (by simp [rest]))
  | @group marker length start =>
    by_cases hfull : st.Full settings
    · rw [(eq_of_full marker length hfull).2]
      exact habove
    · rw [openGroup_of_not_full marker length hfull (Assembly.enterGroup_eq h.closed _)]
      exact habove.push _
  | field rest inside noGroup =>
    obtain ⟨name, bag, ha⟩ | ha := assembly_readItem settings fields h
    · rw [ha]
      exact habove.updateCurrent hd _
    · rw [ha]
      exact habove

/-! ## Runs

Inside a group there is always at least this group on top of the others. -/

/-- Inside a group the books are in order. -/
theorem ReadsInside.sound (h : ReadsInside settings fields st st') (hs : st.Sound text) :
    st'.Sound text := by
  induction h with
  | start => exact hs
  | step _ item _ ih => exact sound_step? item ih

/-- **Whatever is read inside a group changes nothing below the group.** -/
theorem ReadsInside.above (h : ReadsInside settings fields entered st') (hs : entered.Sound text)
    (habove : base.Above entered.session.assembly) (hd : base.depth < entered.openings.length) :
    base.Above st'.session.assembly := by
  induction h with
  | start => exact habove
  | step before item inside ih =>
    exact above_step? (before.sound hs) ih (Nat.lt_of_lt_of_le hd before.suffix.length_le) item
      (.inl (Nat.lt_of_lt_of_le hd inside.length_le))

/-- The start of a group opens it or does not, and leaves the others open. -/
theorem openings_openGroup (settings : Settings) (marker : Option Logical) (length : Nat)
    (st : State) :
    (openGroup settings marker length st).openings = st.openings ∨
      (openGroup settings marker length st).openings =
        st.session.cursor.column :: st.openings := by
  obtain ⟨⟨cursor, assembly, faults, events⟩, openings⟩ := st
  rw [openGroup]
  split
  · exact .inl rfl
  · split
    · exact .inl rfl
    · split
      · exact .inr rfl
      · exact .inl rfl

/-- An item ends the group around it, or is one of several items there, or starts a group. -/
theorem openings_of_step? (h : step? settings fields st = some st') :
    (∃ column, st.openings = column :: st'.openings ∧ (st.session.cursor.rest = [] ∨
        ∃ cs, st.session.cursor.rest = ')' :: cs)) ∨
      (st.session.cursor.rest ≠ [] ∧
        (st.openings = [] ∨ st.session.cursor.rest.head? ≠ some ')') ∧
        (st'.openings = st.openings ∨ ∃ column, st'.openings = column :: st.openings)) := by
  cases item_of_step? h with
  | drop rest openings => exact .inl ⟨_, openings, .inl rest⟩
  | stray rest openings =>
    exact .inr ⟨by simp [rest], .inl openings, .inl openings.symm⟩
  | close rest openings => exact .inl ⟨_, openings, .inr ⟨_, rest⟩⟩
  | @group marker length start =>
    have hne := (Opening.length_pos_of_at? start).2
    have hhead : st.session.cursor.rest.head? ≠ some ')' := fun hh => by
      obtain ⟨cs, hcs⟩ := List.head?_eq_some_iff.1 hh
      rw [hcs] at start
      cases start
    exact .inr ⟨hne, .inr hhead, (openings_openGroup settings marker length st).imp_right
      fun ho => ⟨_, ho⟩⟩
  | field rest inside noGroup =>
    exact .inr ⟨by simp [rest], .inr (by simpa [rest] using inside), .inl rfl⟩

/-- An item inside a group leaves the group open, unless it is the end of the group. -/
theorem suffix_of_step? {column : Nat} {outer : List Nat} (hs : column :: outer <:+ st.openings)
    (hstep : step? settings fields st = some st') :
    column :: outer <:+ st'.openings ∨ st.openings = column :: outer ∧
      (st.session.cursor.rest = [] ∨ ∃ cs, st.session.cursor.rest = ')' :: cs) := by
  rcases openings_of_step? hstep with ⟨ended, ho, hend⟩ | ⟨-, -, ho | ⟨started, ho⟩⟩
  · rw [ho] at hs ⊢
    exact (List.suffix_cons_iff.1 hs).symm.imp_right fun he => ⟨he.symm, hend⟩
  · exact .inl (ho ▸ hs)
  · exact .inl (ho ▸ hs.trans (List.suffix_cons ..))

/-- Reading from inside a group comes to its end: to its `)`, or to the end of the text. -/
theorem exists_end_of_readsInside {column : Nat} {outer : List Nat}
    (ho : entered.openings = column :: outer) (h : ReadsInside settings fields entered st) :
    ∃ last, ReadsInside settings fields entered last ∧ last.openings = entered.openings ∧
      (last.session.cursor.rest = [] ∨ ∃ cs, last.session.cursor.rest = ')' :: cs) := by
  have hsuffix := h.suffix
  fun_induction run settings fields st with
  | case1 st next item ih =>
    rw [ho] at hsuffix
    obtain hnext | ⟨hst, hrest⟩ := suffix_of_step? hsuffix item
    · rw [← ho] at hnext
      exact ih (h.step item hnext) hnext
    · exact ⟨st, h, hst.trans ho.symm, hrest⟩
  | case2 st hnone =>
    rw [(nil_of_step? hnone).2, ho] at hsuffix
    cases List.suffix_nil.1 hsuffix

/-! ## Groups

From the start of a group there is a run inside of it which ends where the group does, or where the
text ends. -/

/-- What becomes of a group that starts. -/
inductive Fate where
  /-- A limit forbids it. -/
  | refused
  /-- Its `)` is missing. -/
  | unclosed
  /-- It is read up to its `)`. -/
  | closed
deriving DecidableEq

/-- A group starts at `st`, and the state behind it is the last one. -/
inductive PassesGroup (settings : Settings) (fields : FieldSet) (st : State) : Fate → State → Prop
  | refused {marker : Option Logical} {length : Nat} {st' : State}
      (start : Opening.at? st.session.cursor.rest = some (marker, length))
      (full : st.Full settings) (item : step? settings fields st = some st') :
      PassesGroup settings fields st .refused st'
  | unclosed {marker : Option Logical} {length : Nat} {entered last st' : State}
      (start : Opening.at? st.session.cursor.rest = some (marker, length))
      (room : ¬st.Full settings) (enter : step? settings fields st = some entered)
      (inside : ReadsInside settings fields entered last)
      (openings : last.openings = entered.openings) (rest : last.session.cursor.rest = [])
      (item : step? settings fields last = some st') : PassesGroup settings fields st .unclosed st'
  | closed {marker : Option Logical} {length : Nat} {entered last st' : State} {cs : List Char}
      (start : Opening.at? st.session.cursor.rest = some (marker, length))
      (room : ¬st.Full settings) (enter : step? settings fields st = some entered)
      (inside : ReadsInside settings fields entered last)
      (openings : last.openings = entered.openings) (rest : last.session.cursor.rest = ')' :: cs)
      (item : step? settings fields last = some st') : PassesGroup settings fields st .closed st'

/-- Where a group starts, the next item is the start of this group. -/
theorem step?_of_at? (h : Opening.at? st.session.cursor.rest = some (marker, length)) :
    step? settings fields st = some (openGroup settings marker length st) := by
  obtain ⟨s, openings⟩ := st
  cases hr : s.cursor.rest with
  | nil =>
    rw [hr] at h
    cases h
  | cons x cs =>
    rw [hr] at h
    refine step?_open hr (fun hx => ?_) h
    rw [hx] at h
    cases h

/-- Every group that starts is refused, or never closed, or closed. -/
theorem exists_passesGroup (fields : FieldSet) (h : st.Sound text)
    (start : Opening.at? st.session.cursor.rest = some (marker, length)) :
    ∃ fate st', PassesGroup settings fields st fate st' := by
  have enter : step? settings fields st = some (openGroup settings marker length st) :=
    step?_of_at? start
  by_cases hfull : st.Full settings
  · exact ⟨_, _, .refused start hfull enter⟩
  · have hentered : (openGroup settings marker length st).openings =
        st.session.cursor.column :: st.openings := by
      rw [openGroup_of_not_full marker length hfull (Assembly.enterGroup_eq h.closed _)]
    obtain ⟨⟨s, around⟩, inside, openings, hrest⟩ :=
      exists_end_of_readsInside hentered .start
    obtain rfl : around = _ := openings.trans hentered
    obtain hrest | ⟨cs, hrest⟩ := hrest
    · exact ⟨_, _, .unclosed start hfull enter inside openings hrest (step?_drop hrest _)⟩
    · exact ⟨_, _, .closed start hfull enter inside openings hrest (step?_close hrest _)⟩

/-- At the end of a group that was entered at `st`, there is one group more under construction than
at `st`, on top of the others. -/
theorem above_of_readsInside (hs : st.Sound text)
    (start : Opening.at? st.session.cursor.rest = some (marker, length))
    (room : ¬st.Full settings) (enter : step? settings fields st = some entered)
    (inside : ReadsInside settings fields entered last)
    (openings : last.openings = entered.openings) :
    last.Sound text ∧ last.openings = st.session.cursor.column :: st.openings ∧
      st.session.assembly.Above last.session.assembly := by
  have hentered := sound_step? enter hs
  rw [step?_of_at? start, openGroup_of_not_full marker length room
    (Assembly.enterGroup_eq hs.closed _)] at enter
  cases enter
  refine ⟨inside.sound hentered, openings, inside.above hentered ?_ ?_⟩
  · exact Assembly.Above.push ⟨rfl, List.suffix_rfl⟩ _
  · rw [hs.level]
    exact Nat.lt_succ_self _

/-- Behind a group, the groups around it are open as before.  The tree is as before too, unless the
group was closed. -/
theorem PassesGroup.outcome {fate : Fate} (h : PassesGroup settings fields st fate st')
    (hs : st.Sound text) :
    st'.openings = st.openings ∧
      (fate = .closed → ∃ g,
        st'.session.assembly = st.session.assembly.updateCurrent (·.addGroup g)) ∧
      (fate ≠ .closed → st'.session.assembly = st.session.assembly) := by
  cases h with
  | @refused marker length _ start full item =>
    obtain ⟨ho, ha⟩ := eq_of_full marker length full
    rw [step?_of_at? start] at item
    cases item
    exact ⟨ho, nofun, fun _ => ha⟩
  | @unclosed _ _ _ last _ start room enter inside openings rest item =>
    obtain ⟨hlast, ho, habove⟩ := above_of_readsInside hs start room enter inside openings
    have hd : st.session.assembly.depth < last.openings.length := by
      rw [ho, hs.level]
      exact Nat.lt_succ_self _
    -- behind the drop the tree is as deep as at the start, and above it, so it is the same
    have hst' := sound_step? item hlast
    have habove' := above_step? hlast habove hd item (.inr rest)
    obtain ⟨s, _⟩ := last
    cases ho
    rw [step?_drop rest] at item
    cases item
    exact ⟨rfl, nofun, fun _ =>
      habove'.eq (hst'.level.trans hs.level.symm) (hst'.closed.trans hs.closed.symm)⟩
  | @closed _ _ _ last _ _ start room enter inside openings rest item =>
    obtain ⟨hlast, ho, habove⟩ := above_of_readsInside hs start room enter inside openings
    obtain ⟨s, _⟩ := last
    cases ho
    rw [step?_close rest] at item
    cases item
    have hd : s.assembly.depth = st.session.assembly.depth + 1 :=
      hlast.level.trans (congrArg (· + 1) hs.level.symm)
    obtain ⟨b, hb, -⟩ := Assembly.exists_of_leaveGroup hlast.closed hd
    rw [assembly_closeGroup hb]
    exact ⟨rfl, fun _ => habove.eq_of_leaveGroup hd hlast.closed hs.closed hb,
      fun hfate => absurd rfl hfate⟩

/-- **What is not accepted leaves nothing behind**, in front of any item of any text.  When a field
cannot be read, the tree is what it was in front of it, whatever entries were collected, and a field
that was not in the group before can still be opened.  A group that starts has a fate, and unless it
is closed, the tree behind it is what it was in front of it, whatever its body had put together; so
the limits leave the same room for a further group. -/
theorem assembly_eq_of_rejected (h : Reachable settings fields text st) :
    (∀ d t, Parser.readField settings fields st.session = .error d t →
        t.assembly.abandonField = st.session.assembly) ∧
      (∀ d t, readPair settings fields st.session = .error d t →
        (readItem settings fields st.session).assembly = st.session.assembly ∧
          ∀ name, st.session.assembly.current.fields.contains name = false →
            ∃ b, Assembly.openField name (readItem settings fields st.session).assembly =
              .ok () b) ∧
      (∀ marker length, Opening.at? st.session.cursor.rest = some (marker, length) →
        ∃ fate st', PassesGroup settings fields st fate st') ∧
      ∀ fate st', PassesGroup settings fields st fate st' →
        st'.openings = st.openings ∧
          (fate = .closed → ∃ g,
            st'.session.assembly = st.session.assembly.updateCurrent (·.addGroup g)) ∧
          (fate ≠ .closed → st'.session.assembly = st.session.assembly ∧
            (st'.Full settings ↔ st.Full settings)) := by
  have hs := sound_of_reachable h
  refine ⟨fun d t hread => ?_, fun d t hread => ?_, fun _ _ => exists_passesGroup fields hs,
    fun fate st' hpasses => ?_⟩
  · have hfails := (Parser.ends_readField hs.ordered hs.closed).of_error hread
    exact hfails.assembly.trans (Assembly.abandonField_eq hs.closed)
  · have hfails := (ends_readPair settings fields hs.ordered hs.closed).of_error hread
    have ha : (readItem settings fields st.session).assembly = st.session.assembly := by
      rw [readItem_of_error hread]
      exact hfails.assembly.trans (Assembly.abandonField_eq hs.closed)
    refine ⟨ha, fun name hname => ?_⟩
    rw [ha, Assembly.openField_eq hs.closed, hname]
    exact ⟨_, rfl⟩
  · obtain ⟨ho, hclosed, hopen⟩ := hpasses.outcome hs
    exact ⟨ho, hclosed, fun hfate => ⟨hopen hfate, by rw [Full, Full, ho, hopen hfate]⟩⟩

/-- A group that is never closed, with a field and a subgroup in it, and a field with a value in
front of the fault. -/
theorem assembly_eq_of_rejected_sample :
    (∃ st', PassesGroup {} .sample (start "(id: 1; (name: a)") .unclosed st' ∧
        st'.session.assembly = (start "(id: 1; (name: a)").session.assembly) ∧
      ∃ d t, readPair {} .sample (start "id: 1, <").session = .error d t ∧
        ∃ b, Assembly.openField "id" (readItem {} .sample (start "id: 1, <").session).assembly =
          .ok () b := by
  refine ⟨?_, ?_⟩
  · obtain ⟨-, -, -, hgroup⟩ := assembly_eq_of_rejected
      (.start : Reachable {} .sample "(id: 1; (name: a)" (start "(id: 1; (name: a)"))
    have hstep {st : State} (h : (step? {} .sample st).isSome = true) :
        step? {} .sample st = some ((step? {} .sample st).get h) := (Option.some_get h).symm
    have hpasses := @PassesGroup.unclosed {} .sample (start "(id: 1; (name: a)") none 1 _ _ _
      (by decide +kernel) (by decide +kernel) (hstep (by decide +kernel))
      (.step (.step (.step (.step .start (hstep (by decide +kernel)) (by decide +kernel))
        (hstep (by decide +kernel)) (by decide +kernel)) (hstep (by decide +kernel))
        (by decide +kernel)) (hstep (by decide +kernel)) (by decide +kernel))
      (by decide +kernel) (by decide +kernel) (hstep (by decide +kernel))
    exact ⟨_, hpasses, ((hgroup _ _ hpasses).2.2 nofun).1⟩
  · obtain ⟨-, hfield, -⟩ := assembly_eq_of_rejected
      (.start : Reachable {} .sample "id: 1, <" (start "id: 1, <"))
    obtain ⟨d, t, hread⟩ := exists_error_of_run' (x := readPair {} .sample)
      (s := (start "id: 1, <").session) (by decide +kernel)
    exact ⟨d, t, hread, (hfield d t hread).2 "id" (by decide +kernel)⟩

end State
end Criteria
