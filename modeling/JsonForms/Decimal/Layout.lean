import JsonForms.Decimal.Shortest

/-!
# Writing a double

A layout decides how a decimal is written down: which exponents are written
out in zeros, and what marks the exponent of the others.
-/

namespace JsonForms.Decimal

/-- How decimals are written. Exponents from `positionalFrom` to `positionalTo`
are written out with digits on both sides of the point; the others follow
`exponentMark`, always with a sign. -/
structure Layout where
  positionalFrom : Int
  positionalTo : Int
  exponentMark : Char

namespace Layout

/-- Plain digits around the point, at least one on either side. -/
def positional (decimal : Scientific) : List Char :=
  if decimal.exponent < 0 then
    ['0', '.'] ++ List.replicate (decimal.exponent.natAbs - 1) '0' ++ decimal.digits
  else
    let whole := decimal.exponent.toNat + 1
    let fraction := decimal.digits.drop whole
    decimal.digits.take whole ++ List.replicate (whole - decimal.digits.length) '0' ++ ['.'] ++
      (if fraction.isEmpty then ['0'] else fraction)

/-- One digit before the point and an exponent. A single digit has no point. -/
def scientific (layout : Layout) (decimal : Scientific) : List Char :=
  decimal.digits.take 1 ++
    (if decimal.digits.length ≤ 1 then [] else '.' :: decimal.digits.drop 1) ++
    [layout.exponentMark, if decimal.exponent < 0 then '-' else '+'] ++
    Nat.toDigits 10 decimal.exponent.natAbs

/-- The text of a positive decimal. -/
def write (layout : Layout) (decimal : Scientific) : List Char :=
  if layout.positionalFrom ≤ decimal.exponent ∧ decimal.exponent ≤ layout.positionalTo then
    positional decimal
  else layout.scientific decimal

/-- The text of a finite double: its shortest decimal, after a minus if it is
negative. Zero is written with one decimal place and keeps its sign. -/
def writeDouble (layout : Layout) (value : Float) : String :=
  let bits := value.toBits.toNat
  let magnitude := bits % Nat.pow 2 63
  String.ofList <|
    (if bits = magnitude then [] else ['-']) ++
      (if magnitude = 0 then ['0', '.', '0'] else layout.write (shortest magnitude))

end Layout

end JsonForms.Decimal
