import Criteria.Stored.Decoder
import Criteria.Value

/-!
# Values, ranges, comparisons and patterns as documents

A value is stored without its type: a whole number in the range of 64-bit words is read as an
integer, any other number as a decimal, and a text as a text.

## What is here

* `toJson` and `ofJson?` for `Value`, `Range`, `Operator`, `Comparison`, `Matcher` and `Pattern`.
-/

set_option autoImplicit false

namespace Criteria

namespace Value

/-- The document of a value. -/
def toJson : Value → Json
  | integer n => .whole n.toInt
  | decimal x => .decimal x
  | text s => .text s

/-- The value that a document stands for. -/
def ofJson? : Json → Option Value
  | .whole n =>
    match Integer.toInt64? n with
    | some i => some (integer i)
    | none => some (decimal n.toNat.toUInt64.toFloat)
  | .decimal x => some (decimal x)
  | .text s => some (text s)
  | _ => none

end Value

namespace Range

/-- The document of a range. -/
def toJson (r : Range) : Json :=
  .object [("lower", r.lower.toJson), ("upper", r.upper.toJson),
    ("lower_inclusive", .bool r.lowerInclusive), ("upper_inclusive", .bool r.upperInclusive)]

/-- The range that a document stands for. -/
def ofJson? (room : Nat) (j : Json) : Option Range := do
  match ← Json.record? ["lower", "upper", "lower_inclusive", "upper_inclusive"] room j with
  | [l, u, li, ui] =>
    return ⟨← Value.ofJson? l, ← Value.ofJson? u, ← Json.bool? li, ← Json.bool? ui⟩
  | _ => none

end Range

namespace Operator

/-- The operators under their stored names. -/
def stored : List (String × Operator) :=
  [("Lower", less), ("LowerOrEqual", lessOrEqual), ("NotEqual", notEqual), ("Greater", greater),
    ("GreaterOrEqual", greaterOrEqual)]

/-- The document of an operator. -/
def toJson : Operator → Json
  | less => .text "Lower"
  | lessOrEqual => .text "LowerOrEqual"
  | notEqual => .text "NotEqual"
  | greater => .text "Greater"
  | greaterOrEqual => .text "GreaterOrEqual"

/-- The operator that a document stands for. -/
def ofJson? : Nat → Json → Option Operator :=
  Json.tag? stored

end Operator

namespace Comparison

/-- The document of a comparison. -/
def toJson (c : Comparison) : Json :=
  .object [("operator", c.operator.toJson), ("value", c.value.toJson)]

/-- The comparison that a document stands for. -/
def ofJson? (room : Nat) (j : Json) : Option Comparison := do
  match ← Json.record? ["operator", "value"] room j with
  | [o, v] => return ⟨← Operator.ofJson? (room - 1) o, ← Value.ofJson? v⟩
  | _ => none

end Comparison

namespace Matcher

/-- The document of an assertion. -/
def toJson (m : Matcher) : Json :=
  .text m.name

/-- The assertion that a document stands for. -/
def ofJson? : Nat → Json → Option Matcher :=
  Json.tag? (all.map fun m => (m.name, m))

end Matcher

namespace Pattern

/-- The document of a pattern. -/
def toJson (p : Pattern) : Json :=
  .object [("kind", p.matcher.toJson), ("value", .text p.text),
    ("case_insensitive", .bool p.ignoresCase)]

/-- The pattern that a document stands for. -/
def ofJson? (room : Nat) (j : Json) : Option Pattern := do
  match ← Json.record? ["kind", "value", "case_insensitive"] room j with
  | [k, v, ci] => return ⟨← Matcher.ofJson? (room - 1) k, ← Json.text? v, ← Json.bool? ci⟩
  | _ => none

end Pattern

end Criteria
