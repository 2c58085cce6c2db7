import Criteria.Diagnostic
import Criteria.Text.Cursor

/-!
# Readers

A reader takes what it reads off the text at a cursor, and gives a result or a diagnostic.  When it
fails, what it has read so far stays read.

## What is here

* `Scanner` — a reader.
* `Scanner.fail` — a fault at the current place.
* `Scanner.accept`, `Scanner.expect` — a token that may follow, or has to.
* `Scanner.Forward` — the reader never moves back; `Forward.bind` derives this for a composed reader
  from its parts.
-/

set_option autoImplicit false

namespace Criteria

/-- A reader of a text. -/
abbrev Scanner := EStateM Diagnostic Cursor

namespace Scanner

variable {α β : Type}

/-- Fails with a fault at the current place, given what is found there. -/
def fail (f : Option Char → Fault) : Scanner α :=
  fun c => .error ((f c.rest.head?).inColumn c.column) c

/-- Moves in the text. -/
def move (f : Cursor → Cursor) : Scanner Unit :=
  fun c => .ok () (f c)

/-- Skips spaces and tabs. -/
def skipBlanks : Scanner Unit :=
  move Cursor.skipBlanks

/-- Takes `token`, behind any spaces and tabs, if it follows.  The spaces and tabs are skipped in
any case. -/
def accept (token : String) : Scanner Bool :=
  fun c =>
    let d := c.skipBlanks
    if token.toList.isPrefixOf d.rest then .ok true (d.advance token.length) else .ok false d

/-- Takes `token`, which has to follow, behind any spaces and tabs. -/
def expect (token : String) : Scanner Unit := do
  unless ← accept token do
    fail (.expectedToken token)

/-! ## Readers do not move back -/

/-- The place where a reader ends, with or without a result. -/
def final : EStateM.Result Diagnostic Cursor α → Cursor
  | .ok _ c => c
  | .error _ c => c

/-- The reader ends at its start or further on. -/
def Forward (x : Scanner α) : Prop :=
  ∀ c : Cursor, c.Reaches (final (x c))

namespace Forward

theorem pure (a : α) : Forward (pure a : Scanner α) :=
  Cursor.Reaches.refl

theorem bind {x : Scanner α} {f : α → Scanner β} (hx : Forward x) (hf : ∀ a, Forward (f a)) :
    Forward (x >>= f) := by
  intro c
  have h : c.Reaches (final (x c)) := hx c
  show c.Reaches (final (EStateM.bind x f c))
  rw [EStateM.bind]
  cases hxc : x c with
  | ok a c' => rw [hxc] at h; exact h.trans (hf a c')
  | error e c' => rw [hxc] at h; exact h

theorem map {x : Scanner α} {f : α → β} (hx : Forward x) : Forward (EStateM.map f x) := by
  intro c
  have h : c.Reaches (final (x c)) := hx c
  rw [EStateM.map]
  split <;> next hxc => rw [hxc] at h; exact h

theorem fail (f : Option Char → Fault) : Forward (fail f : Scanner α) :=
  Cursor.Reaches.refl

theorem move {f : Cursor → Cursor} (hf : ∀ c : Cursor, c.Reaches (f c)) : Forward (move f) :=
  hf

theorem skipBlanks : Forward skipBlanks :=
  Cursor.Reaches.skipBlanks

theorem accept (token : String) : Forward (accept token) := by
  intro c
  rw [Scanner.accept.eq_def]
  dsimp only
  split
  · exact .trans (.skipBlanks c) (.advance ..)
  · exact .skipBlanks c

theorem expect (token : String) : Forward (expect token) := by
  refine (accept token).bind fun found => ?_
  cases found
  · exact fail _
  · exact pure _

end Forward

end Scanner
end Criteria
