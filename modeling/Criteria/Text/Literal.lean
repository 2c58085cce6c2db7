import Criteria.Text.Quoted
import Criteria.Text.Scanner

/-!
# Texts in a condition

A text is written without quotes if it is not empty and holds neither white space nor a quote nor
a reserved character; any other text is written in quotes.

## What is here

* `Literal` — a text that was read, the column it starts in, and whether it was in quotes.
* `Literal.read` — reads a text; as the bound of a range it ends before a bracket, too.
* `Literal.write` — writes a text, in quotes if it needs them.
-/

set_option autoImplicit false

namespace Criteria

/-- A text that was read. -/
structure Literal where
  text : String
  column : Nat
  quoted : Bool

namespace Literal

/-! ## Reading -/

/-- Reads a text in quotes, at its opening quote.  A line break in it is reported only if the text
is closed. -/
def readQuoted : Scanner Literal :=
  fun c =>
    match Text.Quoted.split [] (c.rest.drop 1) with
    | none => .error (Fault.unterminated.inColumn c.column) c
    | some (body, _) =>
      match body.findIdx? Text.isLineBreak with
      | some i => .error (Fault.lineBreak.inColumn (c.column + 1 + i)) c
      | none => .ok ⟨Text.Quoted.undouble "" body, c.column, true⟩ (c.advance (body.length + 2))

/-- Reads a text without quotes.  A reserved character in it is reported at its own place. -/
def readBare (bound : Bool) : Scanner Literal :=
  fun c =>
    let word := c.rest.takeWhile fun x => !Text.endsLiteral bound x
    if word.isEmpty then .error ((Fault.expectedValue c.rest.head?).inColumn c.column) c
    else match word.find? Text.needsQuotes with
      | some x =>
        .error ((Fault.reservedCharacter (.ofList word) x).inColumn
          (c.column + word.findIdx Text.needsQuotes)) c
      | none => .ok ⟨.ofList word, c.column, false⟩ (c.advance word.length)

/-- Reads a text, which is the bound of a range if `bound` holds. -/
def read (bound : Bool) : Scanner Literal :=
  fun c => if c.rest.head? = some '"' then readQuoted c else readBare bound c

theorem forward_readQuoted : readQuoted.Forward := by
  intro c
  rw [readQuoted]
  split
  · exact .refl c
  · split
    · exact .refl c
    · exact .advance _ c

theorem forward_readBare (bound : Bool) : (readBare bound).Forward := by
  intro c
  rw [readBare.eq_def]
  dsimp only
  split
  · exact .refl c
  · split
    · exact .refl c
    · exact .advance _ c

theorem forward_read (bound : Bool) : (read bound).Forward := by
  intro c
  rw [read]
  split
  · exact forward_readQuoted c
  · exact forward_readBare bound c

/-! ## Writing -/

/-- Whether a text has to be written in quotes. -/
def isQuoted (s : String) : Bool :=
  s.isEmpty || s.toList.any fun c => Text.needsQuotes c || Unicode.isSpace c

/-- The text as it is written. -/
def write (s : String) : String :=
  if isQuoted s then .ofList ('"' :: (Text.Quoted.double s.toList ++ ['"'])) else s

end Literal
end Criteria
