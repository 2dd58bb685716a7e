/-!
# Arities

How many operands an operation takes.
-/

namespace JsonForms

/-- The numbers of operands that an operation accepts. Ranges include both ends. -/
inductive Arity where
  | exactly (count : Nat)
  | between (least most : Nat)
  | atLeast (count : Nat)
deriving DecidableEq, Repr

namespace Arity

/-- Whether so many operands are accepted. -/
def accepts : Arity → Nat → Bool
  | .exactly expected, count => count = expected
  | .between least most, count => least ≤ count && count ≤ most
  | .atLeast least, count => least ≤ count

/-- The accepted numbers in words. -/
def text : Arity → String
  | .exactly expected => toString expected
  | .between least most => toString least ++ " or " ++ toString most
  | .atLeast least => "at least " ++ toString least

end Arity

end JsonForms
