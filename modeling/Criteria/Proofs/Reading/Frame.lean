import Criteria.Proofs.Grammar.Items
import Criteria.Proofs.Reading.Recovery
import Criteria.Proofs.Reading.Scanner

/-!
# A part of a text

Two texts are read one after the other, and the reader sees only the longer text.  For its end there
is nothing to show but that all places are further on.  For its start, the reader must not look
behind it; and readers do look ahead, for the sign behind a name, for the quote that closes a text,
for the `~` of a range and for the `(` of a group.  That the start is sealed is what keeps all of
them inside: none of the characters they go on with is a `;`, no quote or parenthesis is open, and
so the first `;` is where each of them stops.

Both cases are used for the same readers, and a `Frame` says which one it is.  So there is one lemma
for each function on texts, and for each reader, and not two.

## What is here

* `Sealed` — a text with one `;`, at its end, and without quotes and parentheses.
* `Sealed.takeWhile_append`, `Sealed.dropWhile_append`, `Sealed.at?_append` — what is behind such a
  text makes no difference.
* `Frame` — how a part lies in a longer text: it is the end of it, or it is the start of it and
  sealed.  `Frame.place` is the place in the longer text.
* `Frame.advance_place`, `Frame.skipWhile_place` — moving in the part, and in the longer text.
-/

set_option autoImplicit false

namespace Criteria

open Grammar

/-! ## Sealed texts

A sealed text can be left character by character and stays sealed, up to its `;`. -/

/-- One `;` ends the text, and there are only ordinary characters in front of it. -/
inductive Sealed : List Char → Prop
  | last : Sealed [';']
  | cons {c : Char} {cs : List Char} (ordinary : Recovery.isOrdinary c = true)
      (sealed : Sealed cs) : Sealed (c :: cs)

namespace Sealed

variable {cs : List Char} {p : Char → Bool} {n : Nat}

/-- Ordinary characters and a `;` are a sealed text. -/
theorem of_ordinary (h : ∀ c ∈ cs, Recovery.isOrdinary c = true) : Sealed (cs ++ [';']) := by
  induction cs with
  | nil => exact .last
  | cons c cs ih => exact .cons (h c (by simp)) (ih fun x hx => h x (by simp [hx]))

/-- A sealed text starts with no sign of its own but its `;`. -/
theorem head?_ne (h : Sealed cs) {x : Char} (hx : Recovery.isOrdinary x = false) (hs : x ≠ ';') :
    cs.head? ≠ some x := by
  intro hc
  cases h with
  | last => exact hs (Option.some.inj hc).symm
  | cons ordinary _ =>
    rw [Option.some.inj hc, hx] at ordinary
    cases ordinary

theorem head?_append (h : Sealed cs) (tail : List Char) : (cs ++ tail).head? = cs.head? := by
  cases h <;> rfl

/-- Behind characters other than `;` the rest of the text is sealed, too. -/
theorem drop (h : Sealed cs) (hn : ∀ c ∈ cs.take n, c ≠ ';') :
    Sealed (cs.drop n) ∧ n < cs.length := by
  induction n generalizing cs with
  | zero => exact ⟨h, by cases h <;> simp⟩
  | succ n ih =>
    cases h with
    | last => exact absurd rfl (hn ';' (by simp))
    | cons ordinary sealed =>
      obtain ⟨hd, hl⟩ := ih sealed fun c hc => hn c (by simp [hc])
      exact ⟨hd, by simpa using hl⟩

/-- Whoever does not take a `;` takes nothing from behind it. -/
theorem takeWhile_append (h : Sealed cs) (hp : p ';' = false) (tail : List Char) :
    (cs ++ tail).takeWhile p = cs.takeWhile p := by
  induction h with
  | last => simp [hp]
  | @cons c cs _ _ ih => by_cases hc : p c = true <;> simp [hc, ih]

/-- Whoever does not drop a `;` stays inside a sealed text, and what is left of it is sealed. -/
theorem dropWhile_append (h : Sealed cs) (hp : p ';' = false) (tail : List Char) :
    (cs ++ tail).dropWhile p = cs.dropWhile p ++ tail ∧ Sealed (cs.dropWhile p) := by
  induction h with
  | last => simp [hp, Sealed.last]
  | @cons c cs ordinary sealed ih =>
    by_cases hc : p c = true
    · simpa [hc] using ih
    · simpa [hc] using Sealed.cons ordinary sealed

/-- Skipping takes all of a sealed text. -/
theorem pairLength_append (h : Sealed cs) (tail : List Char) :
    Recovery.pairLength false 0 n (cs ++ tail) = n + cs.length := by
  induction h generalizing n with
  | last => rfl
  | cons ordinary _ ih =>
    rw [List.cons_append, Recovery.counts_pairLength.ordinary ordinary, ih, List.length_cons]
    omega

/-- No `(` follows in a sealed text, whatever is behind it. -/
theorem not_gaps (h : Sealed cs) (tail rest : List Char) : ¬Gaps (cs ++ tail) ('(' :: rest) := by
  intro gaps
  obtain ⟨he, hs⟩ := h.dropWhile_append (p := Text.isGap) rfl tail
  have hopen := congrArg List.head? (gaps.eq_dropWhile ((stops_cons ..).2 rfl))
  rw [he, hs.head?_append] at hopen
  exact hs.head?_ne rfl (by decide) hopen.symm

/-- No group starts in a sealed text. -/
theorem not_groupStart (h : Sealed cs) {tail rest : List Char} {logical : Logical} :
    ¬GroupStart (cs ++ tail) rest logical := by
  intro hstart
  cases h with
  | last =>
    rw [List.cons_append] at hstart
    cases hstart with
    | bare gaps => exact Sealed.last.not_gaps _ _ gaps
  | cons ordinary sealed =>
    rw [List.cons_append] at hstart
    cases hstart with
    | or gaps | and gaps => exact sealed.not_gaps _ _ gaps
    | bare gaps => exact (Sealed.cons ordinary sealed).not_gaps _ _ gaps

theorem at?_append (h : Sealed cs) (tail : List Char) : Opening.at? (cs ++ tail) = none := by
  cases ha : Opening.at? (cs ++ tail) with
  | none => rfl
  | some found => exact absurd (groupStart_of_at? ha) h.not_groupStart

end Sealed

/-! ## Frames

`Admits` is the condition under which a reader does the same in the longer text, and it is kept by
every move that does not take the `;`. -/

/-- How a text lies in a longer one. -/
inductive Frame where
  /-- The text is the end of the longer one, behind so many bytes and characters. -/
  | behind (bytes chars : Nat)
  /-- The text is the start of the longer one, and this is behind it. -/
  | before (tail : List Char)

namespace Frame

variable (F : Frame)

/-- What is behind the text. -/
def tail : Frame → List Char
  | behind _ _ => []
  | before tail => tail

/-- The bytes in front of the text. -/
def bytes : Frame → Nat
  | behind bytes _ => bytes
  | before _ => 0

/-- The characters in front of the text. -/
def chars : Frame → Nat
  | behind _ chars => chars
  | before _ => 0

/-- What is behind the text makes no difference as long as `cs` is left of it. -/
def Admits (cs : List Char) : Frame → Prop
  | behind _ _ => True
  | before _ => Sealed cs

/-- The place in the longer text. -/
def place (c : Cursor) : Cursor :=
  ⟨c.rest ++ F.tail, c.offset + F.bytes, c.column + F.chars⟩

section Lists

variable {F} {cs : List Char} {p : Char → Bool} {n : Nat}

/-- A function that does not look behind the `;` of a sealed text gives the same for the longer
text. -/
theorem Admits.congr {α : Type} {f : List Char → α} (h : F.Admits cs)
    (hf : Sealed cs → ∀ tail, f (cs ++ tail) = f cs) : f (cs ++ F.tail) = f cs := by
  cases F with
  | behind bytes chars => rw [tail, List.append_nil]
  | before tail => exact hf h tail

theorem Admits.head?_append (h : F.Admits cs) : (cs ++ F.tail).head? = cs.head? :=
  h.congr Sealed.head?_append

/-- What is taken off the text is the same in both texts. -/
theorem Admits.takeWhile_append (h : F.Admits cs) (hp : p ';' = false) :
    (cs ++ F.tail).takeWhile p = cs.takeWhile p :=
  h.congr fun hs => hs.takeWhile_append hp

/-- Without its first characters, none of which is a `;`, the text still lies in the longer one in
this way. -/
theorem Admits.drop (h : F.Admits cs) (hn : ∀ c ∈ cs.take n, c ≠ ';') : F.Admits (cs.drop n) := by
  cases F with
  | behind bytes chars => trivial
  | before tail => exact (Sealed.drop h hn).1

theorem Admits.of_cons {x : Char} (h : F.Admits (x :: cs)) (hx : x ≠ ';') : F.Admits cs :=
  h.drop (n := 1) fun c hc => by
    cases List.mem_singleton.1 hc
    exact hx

theorem Admits.take_append (h : F.Admits cs) (hn : ∀ c ∈ cs.take n, c ≠ ';') :
    (cs ++ F.tail).take n = cs.take n :=
  h.congr fun hs _ => List.take_append_of_le_length (Nat.le_of_lt (hs.drop hn).2)

/-- What is left of the longer text is what is left of the text, and what is behind it. -/
theorem Admits.drop_append (h : F.Admits cs) (hn : ∀ c ∈ cs.take n, c ≠ ';') :
    (cs ++ F.tail).drop n = cs.drop n ++ F.tail := by
  cases F with
  | behind bytes chars => rw [tail, List.append_nil, List.append_nil]
  | before tail => exact List.drop_append_of_le_length (Nat.le_of_lt (Sealed.drop h hn).2)

theorem ne_of_mem_takeWhile (hp : p ';' = false) {c : Char} (hc : c ∈ cs.takeWhile p) :
    c ≠ ';' := by
  rintro rfl
  have := List.all_eq_true.1 List.all_takeWhile _ hc
  rw [hp] at this
  cases this

/-- One character more may be taken if it is no `;`. -/
theorem forall_mem_take_succ {x : Char} (hn : ∀ c ∈ cs.take n, c ≠ ';')
    (hx : (cs.drop n).head? = some x) (hne : x ≠ ';') : ∀ c ∈ cs.take (n + 1), c ≠ ';' := by
  rw [List.head?_drop] at hx
  intro c hc
  rw [List.take_add_one, hx, List.mem_append] at hc
  rcases hc with hc | hc
  · exact hn c hc
  · cases List.mem_singleton.1 hc
    exact hne

end Lists

/-! ### Places

Moving and changing over to the longer text can be done in either order. -/

section Places

variable {F} {c : Cursor} {p : Char → Bool} {n : Nat}

@[simp] theorem rest_place (c : Cursor) : (F.place c).rest = c.rest ++ F.tail := rfl

@[simp] theorem column_place (c : Cursor) : (F.place c).column = c.column + F.chars := rfl

/-- Moving over characters other than `;`. -/
theorem advance_place (h : F.Admits c.rest) (hn : ∀ x ∈ c.rest.take n, x ≠ ';') :
    (F.place c).advance n = F.place (c.advance n) := by
  rw [Cursor.advance_eq, Cursor.advance_eq, place, h.take_append hn, h.drop_append hn, place]
  simp only [Cursor.mk.injEq, true_and]
  omega

theorem Admits.advance (h : F.Admits c.rest) (hn : ∀ x ∈ c.rest.take n, x ≠ ';') :
    F.Admits (c.advance n).rest := by
  rw [Cursor.rest_advance]
  exact h.drop hn

theorem forall_mem_take_takeWhile (hp : p ';' = false) (cs : List Char) :
    ∀ x ∈ cs.take (cs.takeWhile p).length, x ≠ ';' := by
  rw [← List.prefix_iff_eq_take.1 (List.takeWhile_prefix p)]
  exact fun x hx => ne_of_mem_takeWhile hp hx

/-- Skipping characters of a class without the `;`. -/
theorem skipWhile_place (h : F.Admits c.rest) (hp : p ';' = false) :
    (F.place c).skipWhile p = F.place (c.skipWhile p) := by
  rw [Cursor.skipWhile, rest_place, h.takeWhile_append hp]
  exact advance_place h (forall_mem_take_takeWhile hp _)

theorem Admits.skipWhile (h : F.Admits c.rest) (hp : p ';' = false) :
    F.Admits (c.skipWhile p).rest :=
  h.advance (forall_mem_take_takeWhile hp _)

theorem skipBlanks_place (h : F.Admits c.rest) : (F.place c).skipBlanks = F.place c.skipBlanks :=
  skipWhile_place h rfl

theorem skipSpace_place (h : F.Admits c.rest) : (F.place c).skipSpace = F.place c.skipSpace :=
  skipWhile_place h rfl

theorem Admits.skipBlanks (h : F.Admits c.rest) : F.Admits c.skipBlanks.rest :=
  h.skipWhile rfl

theorem Admits.skipSpace (h : F.Admits c.rest) : F.Admits c.skipSpace.rest :=
  h.skipWhile rfl

/-- Moving over one character, whichever it is. -/
theorem next_place {x : Char} {cs : List Char} (hc : c.rest = x :: cs) :
    (F.place c).next = F.place c.next := by
  obtain ⟨rest, offset, column⟩ := c
  cases hc
  simp only [place, List.cons_append, Cursor.next, Cursor.mk.injEq, true_and]
  omega

/-- Behind a character other than `;` the text still lies in the longer one in this way. -/
theorem Admits.next {x : Char} {cs : List Char} (h : F.Admits c.rest) (hc : c.rest = x :: cs)
    (hx : x ≠ ';') : F.Admits c.next.rest := by
  have hd := h.drop (n := 1) fun y hy => by
    rw [hc] at hy
    cases List.mem_singleton.1 hy
    exact hx
  rw [Cursor.rest_next hc]
  rwa [hc] at hd

end Places

/-! ### Places in the end of a text

Behind everything else nothing can be seen that is not there in the part, so here no condition is
needed, not even for skipping. -/

section Behind

variable {bytes chars : Nat}

@[simp] theorem rest_place_behind (c : Cursor) : ((behind bytes chars).place c).rest = c.rest :=
  List.append_nil _

theorem advance_place_behind (n : Nat) (c : Cursor) :
    ((behind bytes chars).place c).advance n = (behind bytes chars).place (c.advance n) := by
  rw [Cursor.advance_eq, Cursor.advance_eq, place, place]
  simp only [tail, List.append_nil, Cursor.mk.injEq, true_and]
  omega

theorem next_place_behind (c : Cursor) :
    ((behind bytes chars).place c).next = (behind bytes chars).place c.next :=
  advance_place_behind 1 c

theorem skipSpace_place_behind (c : Cursor) :
    ((behind bytes chars).place c).skipSpace = (behind bytes chars).place c.skipSpace :=
  skipSpace_place trivial

theorem skipPair_place_behind (c : Cursor) :
    ((behind bytes chars).place c).skipPair = (behind bytes chars).place c.skipPair := by
  rw [Cursor.skipPair, rest_place_behind, advance_place_behind, Cursor.skipPair]

theorem skipBody_place_behind (c : Cursor) :
    ((behind bytes chars).place c).skipBody = (behind bytes chars).place c.skipBody := by
  rw [Cursor.skipBody, rest_place_behind, advance_place_behind, Cursor.skipBody]

end Behind

end Frame
end Criteria
