import Criteria.Json

/-!
# The values of JSON numbers

A number without fraction and exponent is a whole number as long as it fits into 64 bits, with or
without sign.  Any other number is a binary64 number: the leading digits, as many as fit into 64
bits, are scaled by a power of ten, and both steps round.  A number that becomes infinite has no
value.

## What is here

* `Json.Numeral` — a written number in parts; `Json.Numeral.read?` takes one off a text.
* `Json.Numeral.value` — the value.
-/

set_option autoImplicit false

namespace Criteria
namespace Json

/-- A written number in parts. -/
structure Numeral where
  negative : Bool
  whole : List Char
  fraction : Option (List Char)
  exponent : Option Int

namespace Numeral

/-! ## Reading -/

/-- The digits behind a point, if there is one, and the text behind them.  A point without digits is
refused. -/
def readFraction? : List Char → Option (Option (List Char) × List Char)
  | '.' :: cs =>
    let digits := cs.takeWhile Char.isDigit
    if digits.isEmpty then none else some (some digits, cs.dropWhile Char.isDigit)
  | cs => some (none, cs)

/-- The sign of an exponent, and the text behind it. -/
def readSign : List Char → Bool × List Char
  | '-' :: cs => (true, cs)
  | '+' :: cs => (false, cs)
  | cs => (false, cs)

/-- The exponent, if there is one, and the text behind it.  It has to have digits. -/
def readExponent? : List Char → Option (Option Int × List Char)
  | c :: cs =>
    if c = 'e' || c = 'E' then
      let (negative, cs) := readSign cs
      let digits := cs.takeWhile Char.isDigit
      let magnitude : Int := Nat.ofDigitChars 10 digits 0
      if digits.isEmpty then none
      else some (some (if negative then -magnitude else magnitude), cs.dropWhile Char.isDigit)
    else some (none, c :: cs)
  | [] => some (none, [])

/-- Takes a number off a text; its sign has been taken off before. -/
def readUnsigned? (negative : Bool) (cs : List Char) : Option (Numeral × List Char) := do
  let whole := cs.takeWhile Char.isDigit
  if whole.isEmpty || (whole.head? == some '0' && whole.length != 1) then none
  else
    let (fraction, cs) ← readFraction? (cs.dropWhile Char.isDigit)
    let (exponent, cs) ← readExponent? cs
    some (⟨negative, whole, fraction, exponent⟩, cs)

/-- Takes a number off a text. -/
def read? : List Char → Option (Numeral × List Char)
  | '-' :: cs => readUnsigned? true cs
  | cs => readUnsigned? false cs

/-! ## Values -/

/-- Appends digits to a number as long as it fits into 64 bits: the number, and the digits left. -/
def fit (n : Nat) : List Char → Nat × List Char
  | [] => (n, [])
  | c :: cs =>
    let m := 10 * n + (c.toNat - '0'.toNat)
    if m < Nat.pow 2 64 then fit m cs else (n, c :: cs)

/-- A binary64 number times a power of ten, if that is not infinite. -/
def scale (x : Float) (e : Int) : Option Float :=
  if e.natAbs ≤ 308 then
    let power := Decimal.nearest 1 e.natAbs
    if 0 ≤ e then
      let y := x * power
      if y.isInf then none else some y
    else some (x / power)
  else if x == 0 then some x
  else if 0 < e then none
  else scale (x / 1e308) (e + 308)
termination_by e.natAbs
decreasing_by omega

/-- The value of a number. -/
def value (n : Numeral) : Json :=
  let (significand, left) := fit 0 n.whole
  if left.isEmpty && n.fraction.isNone && n.exponent.isNone && !n.negative then
    .whole significand
  else if left.isEmpty && n.fraction.isNone && n.exponent.isNone && 0 < significand &&
      significand ≤ Nat.pow 2 63 then
    .whole (-significand)
  else
    let digits := n.fraction.getD []
    let (significand, unused) := fit significand digits
    let read := digits.length - unused.length
    let exponent := (left.length : Int) - read + n.exponent.getD 0
    match scale significand.toUInt64.toFloat exponent with
    | some x => .decimal (if n.negative then -x else x)
    | none => .unreadable

end Numeral
end Json
end Criteria
