import Criteria.Text.Character

/-!
# A place in the text of a condition

A cursor holds the text that is still to be read, and how much was read before it: in bytes of
UTF-8 and, as a column counted from one, in characters.  Reading only ever moves it forward, by
whole characters, so both measures stay exact.

## What is here

* `Cursor`, `Cursor.start`, `Cursor.next`, `Cursor.advance`.
* `Cursor.skipBlanks`, `Cursor.skipSpace` — over spaces and tabs, and over any white space.
* `Cursor.Reaches` — one place lies behind another one, or at it.
* `Cursor.reaches_iff` — that is: some characters have been taken off the text, and the offset and
  the column have grown by their size and their number.
-/

set_option autoImplicit false

namespace Criteria

/-- A place in a text. -/
structure Cursor where
  /-- The text from here on. -/
  rest : List Char
  /-- The bytes before the place. -/
  offset : Nat
  /-- One more than the characters before the place. -/
  column : Nat

namespace Cursor

/-- The start of a text. -/
def start (text : String) : Cursor :=
  ⟨text.toList, 0, 1⟩

/-- The place behind the next character; the end stays where it is. -/
def next : Cursor → Cursor
  | ⟨[], offset, column⟩ => ⟨[], offset, column⟩
  | ⟨c :: rest, offset, column⟩ => ⟨rest, offset + c.utf8Size, column + 1⟩

/-- The place behind the next `n` characters. -/
def advance : Nat → Cursor → Cursor
  | 0, c => c
  | n + 1, c => advance n c.next

/-- The place behind the longest run of characters with a property. -/
def skipWhile (p : Char → Bool) (c : Cursor) : Cursor :=
  c.advance (c.rest.takeWhile p).length

/-- The place behind any spaces and tabs. -/
def skipBlanks (c : Cursor) : Cursor :=
  c.skipWhile Text.isBlank

/-- The place behind any white space. -/
def skipSpace (c : Cursor) : Cursor :=
  c.skipWhile Unicode.isSpace

/-- Whether nothing is left to read. -/
def atEnd (c : Cursor) : Bool :=
  c.rest.isEmpty

/-- Whether `token` follows, behind any spaces and tabs. -/
def faces (token : List Char) (c : Cursor) : Bool :=
  token.isPrefixOf (c.rest.dropWhile Text.isBlank)

/-- The size of a text in bytes of UTF-8. -/
def utf8Length (cs : List Char) : Nat :=
  cs.foldr (fun c n => c.utf8Size + n) 0

/-! ## Where a move leads -/

theorem advance_eq (n : Nat) (c : Cursor) :
    c.advance n = ⟨c.rest.drop n, c.offset + utf8Length (c.rest.take n),
      c.column + (c.rest.take n).length⟩ := by
  induction n generalizing c with
  | zero => simp [advance, utf8Length]
  | succ n ih =>
    obtain ⟨rest, offset, column⟩ := c
    cases rest with
    | nil => simp [advance, next, ih, utf8Length]
    | cons x rest => simp [advance, next, ih, utf8Length, Nat.add_assoc, Nat.add_comm 1]

@[simp] theorem rest_advance (n : Nat) (c : Cursor) : (c.advance n).rest = c.rest.drop n := by
  rw [advance_eq]

theorem advance_add (m n : Nat) (c : Cursor) : (c.advance m).advance n = c.advance (m + n) := by
  induction m generalizing c with
  | zero => simp [advance]
  | succ m ih => rw [Nat.succ_add]; exact ih c.next

@[simp] theorem rest_skipWhile (p : Char → Bool) (c : Cursor) :
    (c.skipWhile p).rest = c.rest.dropWhile p := by
  rw [skipWhile, rest_advance]
  induction c.rest with
  | nil => rfl
  | cons x r ih => by_cases h : p x <;> simp [h, ih]

theorem length_next_lt {c : Cursor} (h : c.rest ≠ []) : c.next.rest.length < c.rest.length := by
  obtain ⟨_ | ⟨x, rest⟩, offset, column⟩ := c
  · exact absurd rfl h
  · exact Nat.lt_succ_self _

/-- The place `b` can be reached from the place `a` by reading on. -/
def Reaches (a b : Cursor) : Prop :=
  ∃ n, b = a.advance n

namespace Reaches

theorem refl (a : Cursor) : Reaches a a :=
  ⟨0, rfl⟩

theorem advance (n : Nat) (a : Cursor) : Reaches a (a.advance n) :=
  ⟨n, rfl⟩

theorem next (a : Cursor) : Reaches a a.next :=
  ⟨1, rfl⟩

theorem skipWhile (p : Char → Bool) (a : Cursor) : Reaches a (a.skipWhile p) :=
  ⟨_, rfl⟩

theorem skipBlanks (a : Cursor) : Reaches a a.skipBlanks :=
  ⟨_, rfl⟩

theorem skipSpace (a : Cursor) : Reaches a a.skipSpace :=
  ⟨_, rfl⟩

theorem trans {a b c : Cursor} (h : Reaches a b) (k : Reaches b c) : Reaches a c := by
  obtain ⟨m, rfl⟩ := h
  obtain ⟨n, rfl⟩ := k
  exact ⟨m + n, advance_add m n a⟩

theorem length_le {a b : Cursor} (h : Reaches a b) : b.rest.length ≤ a.rest.length := by
  obtain ⟨n, rfl⟩ := h
  simp

/-- Where no character is taken off, the text is the same. -/
theorem rest_eq {a b : Cursor} (h : Reaches a b) (hl : a.rest.length ≤ b.rest.length) :
    b.rest = a.rest := by
  obtain ⟨n, rfl⟩ := h
  rw [rest_advance, List.length_drop] at hl
  rw [rest_advance]
  rcases Nat.eq_zero_or_pos n with rfl | hn
  · rfl
  · have : a.rest = [] := List.length_eq_zero_iff.1 (by omega)
    simp [this]

end Reaches

theorem reaches_iff {a b : Cursor} :
    Reaches a b ↔ ∃ cs, a.rest = cs ++ b.rest ∧ b.offset = a.offset + utf8Length cs ∧
      b.column = a.column + cs.length := by
  constructor
  · rintro ⟨n, rfl⟩
    rw [advance_eq]
    exact ⟨a.rest.take n, (List.take_append_drop n a.rest).symm, rfl, rfl⟩
  · rintro ⟨cs, hr, ho, hc⟩
    refine ⟨cs.length, ?_⟩
    rw [advance_eq, hr]
    simp only [List.drop_left, List.take_left, ← ho, ← hc]

end Cursor
end Criteria
