/-!
# Whole numbers in decimal digits

## What is here

* `Integer.digits` — the shortest decimal digits of a whole number, behind a `-` if it is negative.
* `Integer.ofDigits?` — the number that an optional sign and ASCII digits denote.
* `Integer.toInt64?` — the same number as a 64-bit word, if it has one.
-/

set_option autoImplicit false

namespace Criteria
namespace Integer

/-- The decimal digits of `n`, behind a `-` if it is negative. -/
def digits (n : Int) : List Char :=
  if n < 0 then '-' :: Nat.toDigits 10 n.natAbs else Nat.toDigits 10 n.natAbs

/-- The number that a text of one or more ASCII digits denotes. -/
def natural? (cs : List Char) : Option Nat :=
  if !cs.isEmpty && cs.all Char.isDigit then some (Nat.ofDigitChars 10 cs 0) else none

/-- The number that one or more ASCII digits denote, behind an optional `+` or `-`. -/
def ofDigits? : List Char → Option Int
  | '-' :: cs => (natural? cs).map fun n => -(n : Int)
  | '+' :: cs => (natural? cs).map fun n => (n : Int)
  | cs => (natural? cs).map fun n => (n : Int)

/-- The integer `n` as a signed 64-bit word, if it lies in the range of those. -/
def toInt64? (n : Int) : Option Int64 :=
  if Int64.minValue.toInt ≤ n ∧ n ≤ Int64.maxValue.toInt then some (Int64.ofInt n) else none

end Integer
end Criteria
