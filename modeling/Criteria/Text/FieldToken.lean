import Criteria.Text.Scanner

/-!
# The name or the label in front of the values of a field

## What is here

* `FieldToken.readName` — a name, then any spaces and tabs, then `:` or `=`.
* `FieldToken.readLabel` — a label, then `:`; white space around the label is not part of it.
-/

set_option autoImplicit false

namespace Criteria
namespace FieldToken

/-- The characters of the name at the start of a text; none if it does not start like a name. -/
def nameAt : List Char → List Char
  | [] => []
  | c :: cs => if Text.isNameStart c then c :: cs.takeWhile Text.isNameChar else []

/-- The number of characters of the name at the start of a text and of the spaces and tabs behind
it. -/
def nameLength (cs : List Char) : Nat :=
  let name := nameAt cs
  if name.isEmpty then 0
  else name.length + ((cs.drop name.length).takeWhile Text.isBlank).length

/-- Reads the name of a field.  The fault is reported at the first character that does not fit. -/
def readName : Scanner String :=
  fun c =>
    let d := c.skipBlanks
    let name := nameAt d.rest
    let length := nameLength d.rest
    let found := (d.rest.drop length).head?
    if !name.isEmpty && (found == some ':' || found == some '=') then
      .ok (.ofList name) (d.advance (length + 1))
    else .error ((Fault.expectedFieldName found).inColumn (d.column + length)) d

/-- Reads the label of a field.  A label of nothing but white space is a fault behind its `:`. -/
def readLabel : Scanner String :=
  fun c =>
    let d := c.skipBlanks
    let label := d.rest.takeWhile Text.isLabelChar
    if !label.isEmpty && (d.rest.drop label.length).head? == some ':' then
      let e := d.advance (label.length + 1)
      let trimmed := Unicode.trim label
      if trimmed.isEmpty then .error ((Fault.expectedLabel e.rest.head?).inColumn e.column) e
      else .ok (.ofList trimmed) e
    else .error ((Fault.expectedLabel d.rest.head?).inColumn d.column) d

theorem forward_readName : readName.Forward := by
  intro c
  rw [readName.eq_def]
  dsimp only
  split
  · exact .trans (.skipBlanks c) (.advance ..)
  · exact .skipBlanks c

theorem forward_readLabel : readLabel.Forward := by
  intro c
  rw [readLabel]
  dsimp only
  split
  · split <;> exact .trans (.skipBlanks c) (.advance ..)
  · exact .skipBlanks c

/-- A name takes at least one character. -/
theorem length_lt_of_readName {c d : Cursor} {name : String} (h : readName c = .ok name d) :
    d.rest.length < c.rest.length := by
  have hb := (Cursor.Reaches.skipBlanks c).length_le
  rw [readName.eq_def] at h
  dsimp only at h
  split at h
  · next hf =>
    cases h
    rw [Cursor.rest_advance, List.length_drop]
    have : c.skipBlanks.rest ≠ [] := fun e => by simp [e, nameAt] at hf
    have := List.length_pos_iff.2 this
    omega
  · cases h

/-- A label takes at least one character. -/
theorem length_lt_of_readLabel {c d : Cursor} {label : String} (h : readLabel c = .ok label d) :
    d.rest.length < c.rest.length := by
  have hb := (Cursor.Reaches.skipBlanks c).length_le
  rw [readLabel] at h
  dsimp only at h
  split at h
  · next hf =>
    split at h
    · cases h
    · cases h
      rw [Cursor.rest_advance, List.length_drop]
      have : c.skipBlanks.rest ≠ [] := fun e => by simp [e] at hf
      have := List.length_pos_iff.2 this
      omega
  · cases h

end FieldToken
end Criteria
