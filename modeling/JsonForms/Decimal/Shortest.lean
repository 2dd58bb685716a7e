/-!
# The shortest decimal of a double

Several decimals round to the same double. The shortest of them has the fewest
significant digits, and of those with as few it is the one nearest to the
double itself.

All quantities are whole numbers of one unit, `10 ^ -1076`. That unit divides a
quarter of the smallest double, so every double and every midpoint between two
neighbouring doubles is a whole number of units, and nothing is ever rounded
on the way.
-/

namespace JsonForms.Decimal

/-- The number of decimal places of the unit in which doubles are measured. -/
def places : Nat := 1076

/-- A positive decimal: the number written by `digits`, whose first digit counts
powers of ten with the given exponent. The digits end in no zero. -/
structure Scientific where
  digits : List Char
  exponent : Int
deriving DecidableEq, Repr

/-- The units that round to one double: the double itself and its two bounds,
which are included when `closed`. -/
structure Rounding where
  value : Nat
  lower : Nat
  upper : Nat
  closed : Bool

namespace Rounding

/-- The rounding interval of the positive finite double with the given 64 bits.
Bounds lie half way to the neighbours; the neighbour below a power of two is
only half as far away. An even significand wins ties, so it owns its bounds. -/
def ofBits (bits : Nat) : Rounding :=
  let fraction := bits % Nat.pow 2 52
  let biased := bits / Nat.pow 2 52 % Nat.pow 2 11
  let significand := if biased = 0 then fraction else fraction + Nat.pow 2 52
  let unit := Nat.pow 2 (biased - 1) * Nat.pow 5 places
  let below := if fraction = 0 ∧ 1 < biased then 1 else 2
  { value := 4 * significand * unit
    lower := (4 * significand - below) * unit
    upper := (4 * significand + 2) * unit
    closed := significand % 2 = 0 }

/-- Whether a number of units rounds to the double. -/
def holds (rounding : Rounding) (units : Nat) : Bool :=
  if rounding.closed then rounding.lower ≤ units && units ≤ rounding.upper
  else rounding.lower < units && units < rounding.upper

/-- The multiple of `step` that rounds to the double, as a count of steps. Only
the two multiples next to the double can be; of both the nearer one is taken,
and the even one when they are equally near. -/
def onGrid? (rounding : Rounding) (step : Nat) : Option Nat :=
  let floor := rounding.value / step
  let excess := rounding.value % step
  match rounding.holds (floor * step), rounding.holds ((floor + 1) * step) with
  | true, true =>
      if 2 * excess < step ∨ (2 * excess = step ∧ floor % 2 = 0) then some floor
      else some (floor + 1)
  | true, false => some floor
  | false, true => some (floor + 1)
  | false, false => none

end Rounding

/-- The decimal of `count` steps of `10 ^ exponent` each. -/
def Scientific.ofSteps (count : Nat) (exponent : Int) : Scientific :=
  let digits := Nat.toDigits 10 count
  { digits := (digits.reverse.dropWhile (· = '0')).reverse
    exponent := exponent + digits.length - 1 }

/-- Seventeen significant digits tell any two doubles apart. -/
def mostDigits : Nat := 17

/-- The shortest decimal of the positive finite double with the given 64 bits. -/
def shortest (bits : Nat) : Scientific :=
  let rounding := Rounding.ofBits bits
  let length := (Nat.toDigits 10 rounding.value).length
  let ofLength (count : Nat) : Option Scientific :=
    (rounding.onGrid? (Nat.pow 10 (length - count))).map fun steps =>
      .ofSteps steps ((length : Int) - count - places)
  ((List.range mostDigits).findSome? fun fewer => ofLength (fewer + 1)).getD
    (.ofSteps rounding.value (-places))

end JsonForms.Decimal
