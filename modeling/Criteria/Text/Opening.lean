import Criteria.Text.Scanner

/-!
# The start of a group

A group starts with an optional marker, `*` or `&`, and a parenthesis.  Spaces, tabs, carriage
returns and line feeds may stand between them, other white space may not.

## What is here

* `Opening.at?` — the marker at the start of a text, and the number of characters up to and with the
  parenthesis.
* `Opening.read` — reads the start of a group.
-/

set_option autoImplicit false

namespace Criteria
namespace Opening

/-- The marker at the start of a text. -/
def marker? : List Char → Option Logical
  | '*' :: _ => some .or
  | '&' :: _ => some .and
  | _ => none

/-- The start of a group at the start of a text: its marker, if it has one, and its length. -/
def at? (cs : List Char) : Option (Option Logical × Nat) :=
  let marker := marker? cs
  let rest := cs.drop marker.toList.length
  let gap := rest.takeWhile Text.isGap
  if (rest.drop gap.length).head? = some '(' then
    some (marker, marker.toList.length + gap.length + 1)
  else none

/-- Whether the start of a group follows, behind any spaces and tabs. -/
def follows (c : Cursor) : Bool :=
  (at? (c.rest.dropWhile Text.isBlank)).isSome

/-- Reads the start of a group, behind any spaces and tabs. -/
def read : Scanner (Option Logical) :=
  fun c =>
    let d := c.skipBlanks
    match at? d.rest with
    | some (marker, length) => .ok marker (d.advance length)
    | none => .error ((Fault.expectedToken "(" d.rest.head?).inColumn d.column) d

theorem forward_read : read.Forward := by
  intro c
  rw [read.eq_def]
  dsimp only
  split
  · exact .trans (.skipBlanks c) (.advance ..)
  · exact .skipBlanks c

/-- The start of a group takes at least one character. -/
theorem length_pos_of_at? {cs : List Char} {marker : Option Logical} {n : Nat}
    (h : at? cs = some (marker, n)) : 0 < n ∧ cs ≠ [] := by
  rw [at?.eq_def] at h
  dsimp only at h
  split at h
  · next hp =>
    cases h
    refine ⟨Nat.succ_pos _, fun e => ?_⟩
    simp [e, marker?] at hp
  · cases h

end Opening
end Criteria
