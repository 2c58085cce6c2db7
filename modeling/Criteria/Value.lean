import Criteria.Decimal.Text
import Criteria.Integer

/-!
# Values and the ways to ask for them

A field is matched against values, ranges of values, comparisons with a value, and patterns.

## What is here

* `Value` — a whole number, a decimal number or a text; `Value.display` is its plain text.
* `Range` — two bounds, each of which may belong to the range or not.
* `Comparison` — a comparison operator and a value; `Operator.symbol` and `Operator.ofSymbol?` give
  the five spellings.
* `Pattern` — a piece of text to be found at the start, at the end or anywhere in a value, or not
  to be found there.

Equality of values is that of numbers: a zero equals the negative zero, and a decimal that is not
a number differs from itself.
-/

set_option autoImplicit false

namespace Criteria

/-- A value of a field. -/
inductive Value where
  | integer (n : Int64)
  | decimal (x : Float)
  | text (s : String)
deriving BEq, Inhabited

/-- The plain text of a value. -/
def Value.display : Value → String
  | .integer n => .ofList (Integer.digits n.toInt)
  | .decimal x => Decimal.write Decimal.display x
  | .text s => s

/-- The values between two bounds, which may belong to the range or not. -/
structure Range where
  lower : Value
  upper : Value
  lowerInclusive : Bool
  upperInclusive : Bool
deriving BEq

/-! ## Comparisons -/

/-- The relation of a value to the one it is compared with. -/
inductive Operator where
  | less
  | lessOrEqual
  | notEqual
  | greater
  | greaterOrEqual
deriving DecidableEq

namespace Operator

/-- The written form of the operator. -/
def symbol : Operator → String
  | less => "<"
  | lessOrEqual => "<="
  | notEqual => "<>"
  | greater => ">"
  | greaterOrEqual => ">="

/-- The operator with the given written form. -/
def ofSymbol? : String → Option Operator
  | "<" => some less
  | "<=" => some lessOrEqual
  | "<>" => some notEqual
  | ">" => some greater
  | ">=" => some greaterOrEqual
  | _ => none

theorem ofSymbol?_symbol (o : Operator) : ofSymbol? o.symbol = some o := by
  cases o <;> rfl

end Operator

/-- A comparison with a value. -/
structure Comparison where
  operator : Operator
  value : Value
deriving BEq

/-! ## Patterns -/

/-- Where a piece of text is looked for. -/
inductive Place where
  | anywhere
  | atStart
  | atEnd
deriving DecidableEq

namespace Place

/-- The character that stands for the place. -/
def symbol : Place → Char
  | anywhere => '*'
  | atStart => '>'
  | atEnd => '<'

/-- The place that a character stands for. -/
def ofSymbol? : Char → Option Place
  | '*' => some anywhere
  | '>' => some atStart
  | '<' => some atEnd
  | _ => none

theorem ofSymbol?_symbol (p : Place) : ofSymbol? p.symbol = some p := by
  cases p <;> rfl

end Place

/-- What a pattern asserts: that its text is found at a place, or that it is not. -/
structure Matcher where
  place : Place
  negated : Bool
deriving DecidableEq

/-- The name of the assertion in documents. -/
def Matcher.name : Matcher → String
  | ⟨.anywhere, false⟩ => "CONTAINS"
  | ⟨.atStart, false⟩ => "STARTS_WITH"
  | ⟨.atEnd, false⟩ => "ENDS_WITH"
  | ⟨.anywhere, true⟩ => "NOT_CONTAINS"
  | ⟨.atStart, true⟩ => "NOT_STARTS_WITH"
  | ⟨.atEnd, true⟩ => "NOT_ENDS_WITH"

/-- All assertions. -/
def Matcher.all : List Matcher :=
  [⟨.anywhere, false⟩, ⟨.atStart, false⟩, ⟨.atEnd, false⟩,
    ⟨.anywhere, true⟩, ⟨.atStart, true⟩, ⟨.atEnd, true⟩]

/-- A text that is looked for in the values of a field. -/
structure Pattern where
  matcher : Matcher
  text : String
  ignoresCase : Bool
deriving BEq

end Criteria
