import Criteria.Unicode.Alphabetic
import Criteria.Unicode.Numeric
import Criteria.Unicode.Space

/-!
# The characters of written conditions

Three sets of blank characters matter in a condition: any white space between items and values
(`Unicode.isSpace`), spaces and tabs inside an item (`isBlank`), and the four characters of `isGap`
between the marker of a group and its parenthesis.

## What is here

* `reserved`, `isReserved` — the characters with a meaning of their own, which no unquoted text
  holds.
* `isNameStart`, `isNameChar`, `isFieldName` — names of fields.
* `isLabelChar` — labels of fields.
* `endsLiteral` — where an unquoted text ends.
-/

set_option autoImplicit false

namespace Criteria
namespace Text

/-- The characters with a meaning of their own. -/
def reserved : List Char :=
  ['<', '>', '[', ']', '(', ')', ',', ';', '~', '!', '*', '?', '=']

/-- Whether `c` has a meaning of its own. -/
def isReserved (c : Char) : Bool :=
  reserved.contains c

/-- Whether `c` can stand in an unquoted text only by mistake. -/
def needsQuotes (c : Char) : Bool :=
  c == '"' || isReserved c

/-- A space or a tab. -/
def isBlank (c : Char) : Bool :=
  c == ' ' || c == '\t'

/-- A character allowed between the marker of a group and its parenthesis. -/
def isGap (c : Char) : Bool :=
  c == ' ' || c == '\t' || c == '\r' || c == '\n'

/-- A carriage return or a line feed. -/
def isLineBreak (c : Char) : Bool :=
  c == '\n' || c == '\r'

/-- Whether the name of a field can start with `c`. -/
def isNameStart (c : Char) : Bool :=
  Unicode.isAlphabetic c || c == '_'

/-- Whether the name of a field can go on with `c`. -/
def isNameChar (c : Char) : Bool :=
  Unicode.isAlphabetic c || Unicode.isNumeric c || c == '_' || c == '-'

/-- Whether a text can be written as the name of a field. -/
def isFieldName (name : String) : Bool :=
  match name.toList with
  | [] => false
  | c :: cs => isNameStart c && cs.all isNameChar

/-- Whether the label of a field can hold `c`. -/
def isLabelChar (c : Char) : Bool :=
  !(c == ':' || c == '"' || isLineBreak c || isReserved c)

/-- Whether an unquoted text ends before `c`; the bound of a range ends before a bracket too. -/
def endsLiteral (bound : Bool) (c : Char) : Bool :=
  c == ',' || c == ';' || c == ')' || c == '~' || Unicode.isSpace c ||
    (bound && (c == '[' || c == ']'))

end Text
end Criteria
