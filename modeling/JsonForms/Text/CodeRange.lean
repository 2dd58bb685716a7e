/-!
# Ranges of code points

Tables of character properties are lists of closed ranges. A range says which
characters it holds by their code points alone.
-/

namespace JsonForms.Text

/-- The code points from `first` to `last`, both included. -/
structure CodeRange where
  first : Nat
  last : Nat
deriving DecidableEq, Repr

/-- Whether a character lies in the range. -/
def CodeRange.holds (range : CodeRange) (character : Char) : Bool :=
  range.first ≤ character.toNat && character.toNat ≤ range.last

/-- Whether a character lies in one of the ranges of a table. -/
def inRanges (ranges : List CodeRange) (character : Char) : Bool :=
  ranges.any fun range => range.holds character

end JsonForms.Text
