import Criteria.Proofs.Bytes.Text
import Criteria.Proofs.Reading.Scanner

/-!
# Readers that count bytes

Here a place in a text is the number of bytes in front of it, and whatever is read is cut out of the
whole text.  Columns are counted from a place whose column is known, which is the last one that was
looked up; so a look at a column changes what is known, and later columns have to be the same all
the same.

Two things could go wrong here that cannot go wrong with a cursor.  The text could be cut inside of
a character, and a column could be counted from a place that is not in front of the one in question.
So a reader of this kind has one more way to stop, `Stop.cut`, and everything below is there to show
that no reader ever does.

## What is here

* `Bytes.Place`, `Bytes.Reader` — a place with what is known, and a reader of a text.
* `Bytes.rest`, `Bytes.columnAt`, `Bytes.advanceTo` — what the readers are made of.
* `Bytes.At` — the place is that of a cursor.
* `Bytes.Does`, `Bytes.Follows` — a reader that counts bytes ends as another one does with a cursor,
  and the text is cut only where it can be cut.
* `Bytes.does_columnAt` — columns are exact, whatever was looked up before.

The relation between the two kinds of readers is a simulation.  `At` relates a place to a cursor; it
also says that the last place whose column was looked up is one that can be reached, and nothing
more about it, since this is all that counting from there needs.  A reader that `Does` something at
a cursor does so at every place related to it, and `Follows` says it at all cursors.  Both are
closed under composition, so the simulation of a composed reader is written down in the same way as
the reader.
-/

set_option autoImplicit false

namespace Criteria
namespace Bytes

open Cursor (utf8Length)

/-- A place in a text. -/
structure Place where
  text : String
  /-- The bytes before the place. -/
  offset : Nat := 0
  /-- The last place whose column was looked up, and that column. -/
  known : Nat × Nat := (0, 1)

/-- Why a reader stops. -/
inductive Stop where
  /-- The text cannot be cut at the place in question. -/
  | cut
  /-- A loop does not get on. -/
  | stuck
  | fault (diagnostic : Diagnostic)

/-- A reader of a text. -/
abbrev Reader := EStateM Stop Place

variable {α β : Type}

/-- A part of a text, which has to be there. -/
def part : Option α → Reader α
  | some a => pure a
  | none => throw .cut

/-- The bytes before the place. -/
def offset : Reader Nat :=
  return (← get).offset

/-- The bytes of the whole text. -/
def size : Reader Nat :=
  return utf8Length (← get).text.toList

/-- The text from the place on. -/
def rest : Reader (List Char) := do
  let b ← get
  let parts ← part (cut? b.offset b.text.toList)
  return parts.2

/-- The column of the place behind `n` bytes, counted from another place whose column is known. -/
def countFrom (start : Nat × Nat) (n : Nat) : Reader Nat := do
  let b ← get
  let ahead ← part (cut? start.1 b.text.toList)
  let between ← part (cut? (n - start.1) ahead.2)
  set { b with known := (n, start.2 + between.1.length) }
  return start.2 + between.1.length

/-- The column of the place behind `n` bytes.  It is counted from the last place that was looked up,
or from the start if that one lies further on. -/
def columnAt (n : Nat) : Reader Nat := do
  let b ← get
  countFrom (if b.known.1 ≤ n then b.known else (0, 1)) n

/-- The column of the place. -/
def column : Reader Nat := do
  columnAt (← offset)

/-- The column of the place `n` bytes ahead. -/
def columnAhead (n : Nat) : Reader Nat := do
  columnAt ((← offset) + n)

/-- Moves to the place behind `n` bytes. -/
def moveTo (n : Nat) : Reader Unit :=
  modify fun b => { b with offset := n }

/-- Moves on by `n` bytes. -/
def advance (n : Nat) : Reader Unit := do
  moveTo ((← offset) + n)

/-- Moves to the place where only `remaining` is left to read. -/
def advanceTo (remaining : List Char) : Reader Unit := do
  let n ← size
  let n ← part (if utf8Length remaining ≤ n then some (n - utf8Length remaining) else none)
  moveTo n

/-- Fails with a fault in a column. -/
def failAt (column : Nat) (f : Fault) : Reader α :=
  throw (.fault (f.inColumn column))

/-- Fails with a fault at the place, given what is found there. -/
def fail (f : Option Char → Fault) : Reader α := do
  let cs ← rest
  failAt (← column) (f cs.head?)

/-- Takes what is recognized at the start of the text ahead, if anything is. -/
def consume (recognize : List Char → Option (α × Nat)) : Reader (Option α) := do
  let cs ← rest
  match recognize cs with
  | none => return none
  | some (a, n) =>
    advanceTo (cs.drop n)
    return some a

/-! ## Places and cursors

What is known about columns changes whenever one is looked up, so many places are related to one
cursor.  A reader has to do the same at all of them. -/

/-- The place is that of the cursor, which was reached from the start of the text, and the column
that is known is that of a place that can be reached, too. -/
structure At (s : String) (b : Place) (c : Cursor) : Prop where
  text : b.text = s
  reaches : (Cursor.start s).Reaches c
  offset : b.offset = c.offset
  known : ∃ k, (Cursor.start s).Reaches k ∧ b.known = (k.offset, k.column)

/-- Both readers end in the same way, at the same place of the text. -/
inductive Agrees (s : String) :
    EStateM.Result Stop Place α → EStateM.Result Diagnostic Cursor α → Prop
  | ok {a : α} {b : Place} {c : Cursor} (place : At s b c) : Agrees s (.ok a b) (.ok a c)
  | error {d : Diagnostic} {b : Place} {c : Cursor} (place : At s b c) :
      Agrees s (.error (.fault d) b) (.error d c)

/-- At the place of the cursor `c` the reader ends in this way. -/
def Does (x : Reader α) (c : Cursor) (r : EStateM.Result Diagnostic Cursor α) : Prop :=
  ∀ (s : String) (b : Place), At s b c → Agrees s (x b) r

/-- At all places the reader ends as the other one does. -/
def Follows (x : Reader α) (y : Scanner α) : Prop :=
  ∀ c, Does x c (y c)

variable {x : Reader α} {f : α → Reader β} {y : Scanner α} {g : α → Scanner β} {s : String}
  {b : Place} {c d k : Cursor} {a : α}

/-- At the start of a text nothing has been read, and the column of the first character is known. -/
theorem at_start (s : String) : At s { text := s } (.start s) :=
  ⟨rfl, .refl _, rfl, .start s, .refl _, rfl⟩

theorem does_pure (a : α) (c : Cursor) : Does (pure a) c (.ok a c) :=
  fun _ _ h => .ok h

/-- A fault is that of the other reader if its column is. -/
theorem does_failAt (column : Nat) (f : Fault) (c : Cursor) :
    Does (failAt column f : Reader α) c (.error (f.inColumn column) c) :=
  fun _ _ h => .error h

theorem Does.exists_ok (hx : Does x c (.ok a d)) (h : At s b c) :
    ∃ b', x b = .ok a b' ∧ At s b' d := by
  cases hxb : x b <;> cases hxb ▸ hx s b h
  exact ⟨_, rfl, ‹_›⟩

theorem Does.exists_error {e : Diagnostic} (hx : Does x c (.error e d)) (h : At s b c) :
    ∃ b', x b = .error (.fault e) b' ∧ At s b' d := by
  cases hxb : x b <;> cases hxb ▸ hx s b h
  exact ⟨_, rfl, ‹_›⟩

/-- Behind a result the second part goes on, at the cursor to which the first part has come. -/
theorem Does.bind {r : EStateM.Result Diagnostic Cursor β} (hx : Does x c (.ok a d))
    (hf : Does (f a) d r) : Does (x >>= f) c r := by
  intro s b h
  obtain ⟨b', hb, h'⟩ := hx.exists_ok h
  rw [bind_of_ok hb]
  exact hf s b' h'

/-- A fault of the first part is one of the composed reader. -/
theorem Does.bind_error {e : Diagnostic} (hx : Does x c (.error e d)) :
    Does (x >>= f) c (.error e d) := by
  intro s b h
  obtain ⟨b', hb, h'⟩ := hx.exists_error h
  rw [bind_of_error hb]
  exact .error h'

theorem Follows.pure (a : α) : Follows (pure a) (pure a) :=
  does_pure a

/-- The result of the one reader can be a function of that of the other. -/
theorem Follows.bind_map {γ : Type} {x : Reader β} {h : α → β} {f : β → Reader γ}
    {g : α → Scanner γ} (hx : Follows x (y.map h)) (hf : ∀ a, Follows (f (h a)) (g a)) :
    Follows (x >>= f) (y >>= g) := by
  intro c
  have hc := hx c
  rw [EStateM.map] at hc
  cases hy : y c with
  | ok a d =>
    rw [bind_of_ok hy]
    rw [hy] at hc
    exact hc.bind (hf a d)
  | error e d =>
    rw [bind_of_error hy]
    rw [hy] at hc
    exact hc.bind_error

theorem map_id (y : Scanner α) : y.map id = y := by
  funext c
  rw [EStateM.map]
  cases y c <;> rfl

/-- **A composed reader follows another one if its parts follow the parts.** -/
theorem Follows.bind (hx : Follows x y) (hf : ∀ a, Follows (f a) (g a)) :
    Follows (x >>= f) (y >>= g) :=
  bind_map (h := id) (by rwa [map_id]) hf

/-! ## Cutting the text at the place of a cursor

A cursor that was reached from the start has characters in front of it, and their size is its
offset.  So the text can be cut there, and also further on, at each cursor that can be reached from
this one. -/

/-- A part of a text that is there is taken. -/
theorem part_of_some {x : Option α} (h : x = some a) (b : Place) : part x b = .ok a b := by
  subst h
  rfl

/-- Taking a part that is there does not move. -/
theorem does_part {x : Option α} (h : x = some a) (c : Cursor) : Does (part x) c (.ok a c) := by
  subst h
  exact does_pure a c

/-- The offset of a cursor is the number of bytes in front of the place. -/
theorem does_offset (c : Cursor) : Does offset c (.ok c.offset c) := by
  intro s b h
  rw [← h.offset]
  exact .ok h

/-- The whole text is what lies before a place and what lies ahead. -/
theorem At.utf8Length_eq (h : At s b c) :
    utf8Length b.text.toList = c.offset + utf8Length c.rest := by
  obtain ⟨front, hrest, hoffset, -⟩ := Cursor.reaches_iff.1 h.reaches
  rw [h.text, show s.toList = _ from hrest, utf8Length_append, hoffset]
  exact congrArg (· + _) (Nat.zero_add _).symm

/-- The size of the whole text is that of both parts at a cursor. -/
theorem does_size (c : Cursor) : Does size c (.ok (c.offset + utf8Length c.rest) c) := by
  intro s b h
  rw [← h.utf8Length_eq]
  exact .ok h

/-- Where a cursor gets, the text can be cut. -/
theorem cut?_of_reaches (h : c.Reaches d) :
    ∃ front, cut? (d.offset - c.offset) c.rest = some (front, d.rest) ∧
      d.column = c.column + front.length := by
  obtain ⟨front, hrest, hoffset, hcolumn⟩ := Cursor.reaches_iff.1 h
  refine ⟨front, ?_, hcolumn⟩
  rw [hoffset, Nat.add_sub_cancel_left, hrest]
  exact cut?_append front d.rest

theorem does_rest (c : Cursor) : Does rest c (.ok c.rest c) := by
  intro s b h
  obtain ⟨front, hcut, -⟩ := cut?_of_reaches h.reaches
  have hget : (get : Reader Place) b = .ok b b := rfl
  have hb : cut? b.offset b.text.toList = some (front, c.rest) := by
    rw [h.text, h.offset]
    exact hcut
  rw [rest, bind_of_ok hget, bind_of_ok (part_of_some hb b)]
  exact .ok h

/-- Of two places in a text, the one with more bytes in front lies behind the other one. -/
theorem reaches_of_offset_le {start : Cursor} (hc : start.Reaches c) (hd : start.Reaches d)
    (hle : c.offset ≤ d.offset) : c.Reaches d := by
  obtain ⟨m, rfl⟩ := hc
  obtain ⟨n, rfl⟩ := hd
  rcases Nat.le_total m n with hmn | hnm
  · obtain ⟨i, rfl⟩ := Nat.exists_eq_add_of_le hmn
    exact ⟨i, (Cursor.advance_add m i start).symm⟩
  · obtain ⟨i, rfl⟩ := Nat.exists_eq_add_of_le hnm
    have hback : (start.advance n).Reaches (start.advance (n + i)) :=
      ⟨i, (Cursor.advance_add n i start).symm⟩
    obtain ⟨front, hrest, hoffset, hcolumn⟩ := Cursor.reaches_iff.1 hback
    -- No character is smaller than a byte, so nothing lies between the two places.
    obtain rfl : front = [] := utf8Length_eq_zero_iff.1 (by omega)
    exact Cursor.reaches_iff.2 ⟨[], hrest.symm, hoffset.symm, hcolumn.symm⟩

/-- The place from which columns are counted lies in front of the place in question. -/
theorem At.exists_start (h : At s b c) (hk : (Cursor.start s).Reaches k) :
    ∃ start : Cursor, (Cursor.start s).Reaches start ∧ start.Reaches k ∧
      (if b.known.1 ≤ k.offset then b.known else (0, 1)) = (start.offset, start.column) := by
  obtain ⟨start, hstart, hknown⟩ := h.known
  split
  · next hle =>
    rw [hknown] at hle
    exact ⟨start, hstart, reaches_of_offset_le hstart hk hle, hknown⟩
  · exact ⟨.start s, .refl _, hk, rfl⟩

/-- **Columns are exact**, whatever was looked up before. -/
theorem At.columnAt (h : At s b c) (hk : (Cursor.start s).Reaches k) :
    ∃ b', columnAt k.offset b = .ok k.column b' ∧ At s b' c := by
  obtain ⟨start, hstart, hahead, hfirst⟩ := h.exists_start hk
  obtain ⟨front, hcut, -⟩ := cut?_of_reaches hstart
  obtain ⟨between, hbetween, hcolumn⟩ := cut?_of_reaches hahead
  refine ⟨{ b with known := (k.offset, k.column) }, ?_, h.text, h.reaches, h.offset, k, hk, rfl⟩
  show countFrom (if b.known.1 ≤ k.offset then b.known else (0, 1)) k.offset b = _
  obtain rfl := h.text
  have hget : (get : Reader Place) b = .ok b b := rfl
  have hcut' := part_of_some (show cut? start.offset b.text.toList = _ from hcut) b
  rw [hfirst, countFrom, bind_of_ok hget, bind_of_ok hcut', bind_of_ok (part_of_some hbetween b),
    hcolumn]
  rfl

/-- **The column of a place further on is exact**, whichever column was looked up before. -/
theorem does_columnAt (hk : c.Reaches k) : Does (columnAt k.offset) c (.ok k.column c) := by
  intro s b h
  obtain ⟨b', hb, h'⟩ := h.columnAt (h.reaches.trans hk)
  rw [hb]
  exact .ok h'

theorem does_column (c : Cursor) : Does column c (.ok c.column c) :=
  (does_offset c).bind (does_columnAt (.refl c))

/-- The column behind a number of characters. -/
theorem does_columnAt_add {n : Nat} (hn : n ≤ c.rest.length) :
    Does (columnAt (c.offset + utf8Length (c.rest.take n))) c (.ok (c.column + n) c) := by
  have hcolumn := does_columnAt (.advance n c)
  rwa [Cursor.advance_eq, List.length_take_of_le hn] at hcolumn

theorem does_columnAhead {n : Nat} (hn : n ≤ c.rest.length) :
    Does (columnAhead (utf8Length (c.rest.take n))) c (.ok (c.column + n) c) :=
  (does_offset c).bind (does_columnAt_add hn)

/-- A fault at the place stands in the column of the cursor and tells the next character. -/
theorem does_fail (f : Option Char → Fault) (c : Cursor) :
    Does (fail f : Reader α) c (.error ((f c.rest.head?).inColumn c.column) c) :=
  (does_rest c).bind ((does_column c).bind (does_failAt _ _ c))

/-! ## Moves

A move is given by the bytes in front of the new place, by those in between, or by the text that is
left behind it. -/

/-- Moving to a place that can be reached leads to the cursor there. -/
theorem does_moveTo (h : c.Reaches d) : Does (moveTo d.offset) c (.ok () d) :=
  fun _ _ hb => .ok ⟨hb.text, hb.reaches.trans h, rfl, hb.known⟩

/-- Moving over a number of characters, by their size. -/
theorem does_advance (n : Nat) (c : Cursor) :
    Does (advance (utf8Length (c.rest.take n))) c (.ok () (c.advance n)) := by
  have hmove := does_moveTo (.advance n c)
  rw [Cursor.advance_eq] at hmove ⊢
  exact (does_offset c).bind hmove

/-- Moving to where a certain text is left. -/
theorem does_advanceTo (h : c.Reaches d) : Does (advanceTo d.rest) c (.ok () d) := by
  obtain ⟨front, hrest, hoffset, -⟩ := Cursor.reaches_iff.1 h
  have hsize : c.offset + utf8Length c.rest = d.offset + utf8Length d.rest := by
    rw [hrest, utf8Length_append, hoffset, Nat.add_assoc]
  refine (does_size c).bind ((does_part (a := d.offset) ?_ c).bind (does_moveTo h))
  rw [hsize, if_pos (Nat.le_add_left ..), Nat.add_sub_cancel]

/-- What is not recognized is not taken. -/
theorem does_consume_none {recognize : List Char → Option (α × Nat)}
    (h : recognize c.rest = none) : Does (consume recognize) c (.ok none c) := by
  refine (does_rest c).bind ?_
  rw [h]
  exact does_pure none c

/-- What is recognized is taken, by the text that is left behind it. -/
theorem does_consume_some {recognize : List Char → Option (α × Nat)} {n : Nat}
    (h : recognize c.rest = some (a, n)) :
    Does (consume recognize) c (.ok (some a) (c.advance n)) := by
  refine (does_rest c).bind ?_
  rw [h]
  have hmove := does_advanceTo (.advance n c)
  rw [Cursor.rest_advance] at hmove
  exact hmove.bind (does_pure (some a) _)

end Bytes
end Criteria
