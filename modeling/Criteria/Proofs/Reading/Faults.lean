import Criteria.Parse.State

/-!
# Faults are kept

Whatever is read, the faults recorded before stay recorded, in front of the new ones.  So a text is
read without a fault only if each of its parts is.

A session records its faults in an array that only ever grows, but it is handed on through every
reader, and each of them could replace it.  Here this is ruled out once, reader by reader and item
by item, in the form in which it is used: the faults of a session are the first ones of any later
session.

Acceptance rests on this.  A text is accepted if no fault is there at the end; knowing that faults
are kept, each single part of the text can then be taken as read without a fault, and the grammar of
that part applies.

## What is here

* `Parser.Keeps` — the reader keeps the faults; `Keeps.bind` derives this for a composed reader.
* `State.faults_step?`, `State.faults_run` — so do reading an item and reading all items.
* `State.faults_ne_of_run` — a fault that is recorded once is there at the end.
-/

set_option autoImplicit false

namespace Criteria

/-- A pushed fault is behind the others. -/
theorem prefix_push (faults : Array Diagnostic) (d : Diagnostic) :
    faults.toList <+: (faults.push d).toList := by
  rw [Array.toList_push]
  exact List.prefix_append ..

/-! ## Readers

One lemma for each of the steps of which readers of fields consist.  Those that read texts do not
see the faults at all; only `report` adds any. -/

namespace Parser

variable {α β : Type}

/-- The reader keeps the faults that are recorded, with or without a result. -/
def Keeps (x : Parser α) : Prop :=
  ∀ s : Session, s.faults.toList <+: (final (x s)).faults.toList

namespace Keeps

/-- Giving a result changes nothing. -/
theorem pure (a : α) : Keeps (pure a : Parser α) :=
  fun _ => List.prefix_rfl

/-- A composed reader keeps the faults if its parts do. -/
theorem bind {x : Parser α} {f : α → Parser β} (hx : Keeps x) (hf : ∀ a, Keeps (f a)) :
    Keeps (x >>= f) := by
  intro s
  have h := hx s
  show s.faults.toList <+: (final (EStateM.bind x f s)).faults.toList
  rw [EStateM.bind]
  cases hxs : x s with
  | ok a t =>
    rw [hxs] at h
    exact h.trans (hf a t)
  | error e t =>
    rw [hxs] at h
    exact h

/-- Reading a text leaves the faults alone, also if it fails. -/
theorem scan (x : Scanner α) : Keeps (scan x) := by
  rintro ⟨cursor, assembly, faults, events⟩
  rw [Parser.scan]
  split <;> exact List.prefix_rfl

/-- An operation on the tree leaves the faults alone, also if it is refused. -/
theorem edit (column : Nat) (x : Assembly.Edit) : Keeps (edit column x) := by
  rintro ⟨cursor, assembly, faults, events⟩
  rw [Parser.edit]
  split <;> exact List.prefix_rfl

/-- Faults that are reported come behind those that were there. -/
theorem report (ds : List Diagnostic) : Keeps (report ds) := by
  intro s
  show s.faults.toList <+: (ds.foldl (fun s d => s.report d) s).faults.toList
  induction ds generalizing s with
  | nil => exact List.prefix_rfl
  | cons d ds ih => exact (prefix_push s.faults d).trans (ih (s.report d))

theorem log (e : Event) : Keeps (log e) :=
  fun _ => List.prefix_rfl

theorem move (f : Cursor → Cursor) : Keeps (move f) :=
  fun _ => List.prefix_rfl

theorem here : Keeps here :=
  fun _ => List.prefix_rfl

theorem throw (d : Diagnostic) : Keeps (throw d : Parser α) :=
  fun _ => List.prefix_rfl

end Keeps

/-- The faults in front of a reader, and those behind its result. -/
theorem faults_of_ok {x : Parser α} (hx : Keeps x) {s t : Session} {a : α} (h : x s = .ok a t) :
    s.faults.toList <+: t.faults.toList := by
  have hk := hx s
  rwa [h] at hk

/-- The faults in front of a reader, and those recorded when it fails.  The fault with which it
fails is not yet among them. -/
theorem faults_of_error {x : Parser α} (hx : Keeps x) {s t : Session} {d : Diagnostic}
    (h : x s = .error d t) : s.faults.toList <+: t.faults.toList := by
  have hk := hx s
  rwa [h] at hk

/-- A session without faults had none before. -/
theorem faults_eq_empty {s t : Session} (h : s.faults.toList <+: t.faults.toList)
    (ht : t.faults = #[]) : s.faults = #[] := by
  rw [ht] at h
  exact Array.toList_inj.1 (List.prefix_nil.1 h)

/-! ## Fields

The readers of fields, put together as they are.  For the loop over the values the induction is on
the loop itself. -/

theorem keeps_readEntry (field : Field) : (readEntry field).Keeps := by
  refine Keeps.here.bind fun start => (Keeps.scan _).bind fun form => ?_
  split
  · exact (Keeps.edit _ _).bind fun _ => .pure _
  · exact (Keeps.report _).bind fun _ => .pure _

theorem keeps_readStep (field : Field) : (readStep field).Keeps :=
  (keeps_readEntry field).bind fun _ => .scan _

/-- Values are read one after the other, and none of them loses a fault. -/
theorem keeps_readEntries (settings : Settings) (field : Field) (count : Nat) :
    Keeps (readEntries settings field count) := by
  intro s
  fun_induction readEntries settings field count s with
  | case1 s => exact List.prefix_rfl
  | case2 count s _ t h ih => exact (faults_of_ok (keeps_readStep field) h).trans ih
  | case3 count s _ t h => exact faults_of_ok (keeps_readStep field) h
  | case4 count s _ d t h => exact faults_of_error (keeps_readStep field) h

theorem keeps_readValues (settings : Settings) (field : Field) (column : Nat) :
    Keeps (readValues settings field column) := by
  refine (Keeps.edit _ _).bind fun _ => (Keeps.log _).bind fun _ => (Keeps.move _).bind fun _ =>
    Keeps.here.bind fun c => ?_
  split
  · exact .throw _
  · exact (keeps_readEntries settings field 0).bind fun _ => (Keeps.edit _ _).bind fun _ => .move _

theorem keeps_readField (settings : Settings) (fields : FieldSet) :
    Keeps (readField settings fields) := by
  refine Keeps.here.bind fun start => (Keeps.scan _).bind fun token => ?_
  split
  · exact keeps_readValues _ _ _
  · exact .throw _

end Parser

/-! ## Items

Whatever sort the next item is of, it adds its faults behind those that are there: none, one, or for
a field as many as there are texts that the field refuses. -/

namespace State

variable (settings : Settings) (fields : FieldSet)

theorem keeps_readPair : (readPair settings fields).Keeps := by
  refine Parser.Keeps.here.bind fun c => ?_
  split
  · exact .throw _
  · exact Parser.keeps_readField settings fields

/-- A group that is refused is recorded as a fault, and one that is entered is not. -/
theorem faults_openGroup (marker : Option Logical) (length : Nat) (st : State) :
    st.session.faults.toList <+: (openGroup settings marker length st).session.faults.toList := by
  obtain ⟨⟨cursor, assembly, faults, events⟩, openings⟩ := st
  rw [openGroup]
  split
  · exact prefix_push ..
  · split
    · exact prefix_push ..
    · split
      · exact List.prefix_rfl
      · exact prefix_push ..

/-- Leaving a group records a fault only if it is refused. -/
theorem faults_closeGroup (column : Nat) (s : Session) :
    s.faults.toList <+: (closeGroup column s).faults.toList := by
  rw [closeGroup.eq_def]
  dsimp only
  split
  · exact List.prefix_rfl
  · exact prefix_push ..

/-- An unclosed group is a fault. -/
theorem faults_dropGroup (column : Nat) (s : Session) :
    ∃ d, (dropGroup column s).faults = s.faults.push d := by
  rw [dropGroup.eq_def]
  dsimp only
  split <;> exact ⟨_, rfl⟩

/-- A `)` that closes no group is a fault. -/
theorem faults_skipStrayEnd (s : Session) : ∃ d, (skipStrayEnd s).faults = s.faults.push d :=
  ⟨_, rfl⟩

/-- The fault with which a field fails is recorded behind the others. -/
theorem faults_readItem (s : Session) :
    s.faults.toList <+: (readItem settings fields s).faults.toList := by
  rw [readItem]
  split
  · next t h =>
    show _ <+: t.faults.toList
    exact Parser.faults_of_ok (keeps_readPair settings fields) h
  · next h =>
    exact (Parser.faults_of_error (keeps_readPair settings fields) h).trans (prefix_push ..)

/-- **Every item keeps the faults.** -/
theorem faults_step? {st st' : State} (h : step? settings fields st = some st') :
    st.session.faults.toList <+: st'.session.faults.toList := by
  cases item_of_step? h with
  | drop =>
    obtain ⟨d, hd⟩ := faults_dropGroup _ st.session
    exact hd ▸ prefix_push ..
  | stray => exact prefix_push ..
  | close => exact faults_closeGroup _ _
  | group => exact faults_openGroup settings _ _ st
  | field => exact faults_readItem settings fields st.session

theorem faults_assertFinished (st : State) :
    st.session.faults.toList <+: st.assertFinished.faults.toList := by
  rw [assertFinished]
  split
  · exact prefix_push ..
  · exact List.prefix_rfl

/-- **Reading the rest of a text keeps the faults.** -/
theorem faults_run (st : State) :
    st.session.faults.toList <+: (run settings fields st).faults.toList := by
  fun_induction run settings fields st with
  | case1 st next h ih => exact (faults_step? settings fields h).trans ih
  | case2 st h => exact faults_assertFinished st

/-- A fault that is recorded once is there at the end. -/
theorem faults_ne_of_run {st : State} (h : st.session.faults ≠ #[]) :
    (run settings fields st).faults ≠ #[] :=
  fun he => h (Parser.faults_eq_empty (faults_run settings fields st) he)

end State
end Criteria
