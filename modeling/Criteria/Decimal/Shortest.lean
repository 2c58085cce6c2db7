/-!
# The fewest decimal digits that read back

A binary64 number stands for every real that rounds to it.  The decimal written for it is the one
with the fewest digits among those reals, and of several with that many digits the one nearest to
the number.

All arithmetic here is exact.  A finite magnitude is `m · 2^q`; the reals that round to it form an
interval around it, whose ends belong to it exactly if `m` is even.  For `n = 1, 2, …, 17` the two
neighbours of the magnitude on the grid of `n`-digit decimals are tested against that interval, and
the first `n` with a hit decides.

## What is here

* `Dyadic` — a magnitude `m · 2^q` and the distance to its lower neighbour; `Dyadic.ofFloat`.
* `Digits` — a decimal `s · 10^e`.
* `Tie` — which of two decimals at the same distance is written.
* `Dyadic.shortest` — the digits.
-/

set_option autoImplicit false

namespace Criteria
namespace Decimal

/-- A magnitude `mantissa · 2 ^ exponent`.  It is `atBinade` if the next lower binary64 number lies
half as far away as the next higher one. -/
structure Dyadic where
  mantissa : Nat
  exponent : Int
  atBinade : Bool

/-- The magnitude of a finite binary64 number. -/
def Dyadic.ofFloat (x : Float) : Dyadic :=
  let bits := x.toBits.toNat
  let fraction := bits % Nat.pow 2 52
  let biased := bits / Nat.pow 2 52 % Nat.pow 2 11
  if biased = 0 then ⟨fraction, -1074, false⟩
  else ⟨Nat.pow 2 52 + fraction, Int.ofNat biased - 1075, fraction = 0 && 1 < biased⟩

/-- The decimal `significand · 10 ^ exponent`. -/
structure Digits where
  significand : Nat
  exponent : Int

/-- The same decimal without zeros at the end of the significand. -/
def Digits.normalize (s : Nat) (e : Int) : Digits :=
  if h : s ≠ 0 ∧ s % 10 = 0 then normalize (s / 10) (e + 1) else ⟨s, e⟩
termination_by s
decreasing_by omega

/-- Which of two decimals at the same distance is written. -/
inductive Tie where
  | up
  | even

/-- A magnitude and the reals that round to it, over one denominator. -/
structure Interval where
  low : Nat
  value : Nat
  high : Nat
  denominator : Nat
  closed : Bool

/-- The interval of the reals that round to a magnitude: it ends half way to each neighbour. -/
def Dyadic.interval (d : Dyadic) : Interval :=
  let below := if d.atBinade then 1 else 2
  let scale := Nat.pow 2 (d.exponent - 2).toNat
  { low := (4 * d.mantissa - below) * scale
    value := 4 * d.mantissa * scale
    high := (4 * d.mantissa + 2) * scale
    denominator := Nat.pow 2 (2 - d.exponent).toNat
    closed := d.mantissa % 2 = 0 }

/-- Whether `x`, over the denominator of the interval, rounds to its value. -/
def Interval.contains (i : Interval) (x : Nat) : Bool :=
  if i.closed then i.low ≤ x && x ≤ i.high else i.low < x && x < i.high

/-- Multiplies all numbers by `k`, and the denominator by `l`. -/
def Interval.rescale (i : Interval) (k l : Nat) : Interval :=
  { i with low := i.low * k, value := i.value * k, high := i.high * k,
           denominator := i.denominator * l }

/-- The multiple of `10 ^ e` next to the value that rounds to it, if there is one. -/
def Interval.onGrid (i : Interval) (tie : Tie) (e : Int) : Option Digits :=
  let j := i.rescale (Nat.pow 10 (-e).toNat) (Nat.pow 10 e.toNat)
  let lower := j.value / j.denominator
  let below := j.value - lower * j.denominator
  let above := (lower + 1) * j.denominator - j.value
  match j.contains (lower * j.denominator), j.contains ((lower + 1) * j.denominator) with
  | false, false => none
  | true, false => some ⟨lower, e⟩
  | false, true => some ⟨lower + 1, e⟩
  | true, true =>
    if below < above then some ⟨lower, e⟩
    else if above < below then some ⟨lower + 1, e⟩
    else match tie with
      | .up => some ⟨lower + 1, e⟩
      | .even => some ⟨if lower % 2 = 0 then lower else lower + 1, e⟩

/-- The number of digits before the point: the least `p` for which the magnitude is below `10 ^ p`.
The logarithm of two, to five places, leaves two candidates. -/
def Dyadic.point (d : Dyadic) : Int :=
  let least := ((d.mantissa.log2 : Int) + d.exponent) * 30103 / 100000 + 1
  let top := d.mantissa * Nat.pow 2 d.exponent.toNat * Nat.pow 10 (-least).toNat
  if top < Nat.pow 10 least.toNat * Nat.pow 2 (-d.exponent).toNat then least else least + 1

/-- The decimal with the fewest digits that reads back as the magnitude, which is not zero. -/
def Dyadic.shortest (tie : Tie) (d : Dyadic) : Digits :=
  let point := d.point
  let found := (List.range 17).findSome? fun n =>
    d.interval.onGrid tie (point - Int.ofNat (n + 1))
  match found with
  | some digits => .normalize digits.significand digits.exponent
  | none => .normalize (d.mantissa * Nat.pow 2 d.exponent.toNat) 0

end Decimal
end Criteria
