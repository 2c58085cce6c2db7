import Criteria.Decimal.Shortest
import Criteria.Integer

/-!
# The text of a decimal number

## What is here

* `Decimal.Style` — the decisions a format takes: how ties are resolved, which magnitudes are
  written without an exponent, and whether a whole number keeps a fraction.
* `Decimal.write` — the text of any binary64 number in a style.
* `Decimal.display` — numbers in conditions: never an exponent, no fraction on a whole number.
* `Decimal.interchange` — numbers in JSON: always a fraction or an exponent.
* `Decimal.ofText?` — the number nearest to the one that a text denotes.
-/

set_option autoImplicit false

namespace Criteria
namespace Decimal

/-- The decisions a number format takes.  `positional p` holds if a number whose decimal point
stands behind `p` digits is written without an exponent. -/
structure Style where
  tie : Tie
  positional : Int → Bool
  keepsFraction : Bool

/-- Numbers in conditions have no exponent, and of two equally near decimals the larger is
written. -/
def display : Style := ⟨.up, fun _ => true, false⟩

/-- Numbers in JSON have an exponent below `1e-5` and from `1e16` on, and a fraction otherwise. -/
def interchange : Style := ⟨.even, fun p => -5 < p && p ≤ 16, true⟩

/-- A decimal written without an exponent. -/
def Style.writePositional (style : Style) (digits : List Char) (point : Int) : List Char :=
  if point ≤ 0 then '0' :: '.' :: (List.replicate (-point).toNat '0' ++ digits)
  else if (digits.length : Int) ≤ point then
    digits ++ List.replicate (point - digits.length).toNat '0' ++
      (if style.keepsFraction then ['.', '0'] else [])
  else digits.take point.toNat ++ '.' :: digits.drop point.toNat

/-- A decimal written with one digit before the point and an exponent, which always has a sign. -/
def writeScientific (digits : List Char) (point : Int) : List Char :=
  let fraction := digits.drop 1
  digits.take 1 ++ (if fraction.isEmpty then [] else '.' :: fraction) ++
    'e' :: (if 0 < point then '+' :: Integer.digits (point - 1) else Integer.digits (point - 1))

/-- The text of a finite magnitude. -/
def Style.writeMagnitude (style : Style) (d : Dyadic) : List Char :=
  if d.mantissa = 0 then if style.keepsFraction then ['0', '.', '0'] else ['0']
  else
    let decimal := d.shortest style.tie
    let digits := Nat.toDigits 10 decimal.significand
    let point := digits.length + decimal.exponent
    if style.positional point then style.writePositional digits point
    else writeScientific digits point

/-- The text of a number.  A zero keeps its sign; a number that is none has no sign. -/
def write (style : Style) (x : Float) : String :=
  if x.isNaN then "NaN"
  else
    let magnitude := if x.isInf then ['i', 'n', 'f'] else style.writeMagnitude (.ofFloat x)
    .ofList (if Nat.pow 2 63 ≤ x.toBits.toNat then '-' :: magnitude else magnitude)

/-! ## Reading -/

/-- The value `significand · 10 ^ exponent`, rounded to the nearest binary64 number. -/
def nearest (significand : Nat) (exponent : Int) : Float :=
  Float.ofScientific significand (exponent < 0) exponent.natAbs

/-- The size of an exponent, given by one or more ASCII digits.  Digits behind the first one that
makes it `2 ^ 16` or more are not counted. -/
def exponentSize? (cs : List Char) : Option Nat :=
  if !cs.isEmpty && cs.all Char.isDigit then
    some (cs.foldl (fun n c => if n < Nat.pow 2 16 then 10 * n + (c.toNat - '0'.toNat) else n) 0)
  else none

/-- The exponent that one or more ASCII digits stand for, behind an optional `+` or `-`. -/
def signedExponent? : List Char → Option Int
  | '-' :: cs => (exponentSize? cs).map fun n => -(n : Int)
  | '+' :: cs => (exponentSize? cs).map fun n => (n : Int)
  | cs => (exponentSize? cs).map fun n => (n : Int)

/-- The exponent written at the end of a number: nothing, or an `e` and a signed exponent. -/
def exponent? : List Char → Option Int
  | [] => some 0
  | c :: cs => if c = 'e' || c = 'E' then signedExponent? cs else none

/-- An unsigned decimal: digits with at most one point among them, at least one digit, and an
optional exponent. -/
def magnitude? (cs : List Char) : Option Float :=
  let whole := cs.takeWhile Char.isDigit
  let rest := cs.dropWhile Char.isDigit
  let (fraction, rest) := match rest with
    | '.' :: r => (r.takeWhile Char.isDigit, r.dropWhile Char.isDigit)
    | r => ([], r)
  if whole.isEmpty && fraction.isEmpty then none
  else (exponent? rest).map fun e =>
    nearest (Nat.ofDigitChars 10 (whole ++ fraction) 0) (e - fraction.length)

/-- A magnitude, or one of the names of infinity and of the number that is none, in any case. -/
def unsigned? (cs : List Char) : Option Float :=
  let word := cs.map Char.toLower
  if word = "inf".toList || word = "infinity".toList then some (1 / 0)
  else if word = "nan".toList then some (0 / 0)
  else magnitude? cs

/-- The number that a text denotes, an optional sign first. -/
def ofText? : List Char → Option Float
  | '-' :: cs => (unsigned? cs).map fun x => -x
  | '+' :: cs => unsigned? cs
  | cs => unsigned? cs

end Decimal
end Criteria
