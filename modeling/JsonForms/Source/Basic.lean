/-!
# Program sources

A source is the text of a program together with the name that messages give
it. Only the newline character ends a line. Carriage returns that stand at the
end of a line are not part of its text.
-/

namespace JsonForms

/-- The text of a program and the name that messages give it. -/
structure Source where
  name : String
  text : String
deriving DecidableEq, Repr, Inhabited

namespace Source

/-- A line without the carriage returns at its end. -/
def withoutReturns (line : List Char) : List Char :=
  (line.reverse.dropWhile (· = '\r')).reverse

/-- The lines of a text. A text without a newline is one line. -/
def lines (characters : List Char) : List (List Char) :=
  (characters.splitOn '\n').map withoutReturns

/-- A line of a text, lines being counted from one. -/
def lineOf (number : Nat) (characters : List Char) : Option (List Char) :=
  match number with
  | 0 => none
  | index + 1 => (lines characters)[index]?

/-- A line of the source, lines being counted from one. -/
def line? (source : Source) (number : Nat) : Option String :=
  (lineOf number source.text.toList).map String.ofList

end Source

end JsonForms
