import JsonForms.Log
import JsonForms.Text.Blank
import JsonForms.Text.Digit

/-!
# Settings

How deep forms may nest can be set from outside by a variable. What is not a
positive 64-bit number is ignored with a warning that quotes it as it is.
-/

namespace JsonForms.Settings

open Text

/-- The number of forms that can be open at once when nothing else is set. -/
def defaultLimit : Nat := 10000

/-- The greatest limit that can be set. -/
def greatestLimit : Nat := 0xFFFFFFFFFFFFFFFF

/-- The name of the variable that sets the limit. -/
def limitVariable : String := "JEXP_MAX_DEPTH"

/-- The limit that a text stands for: a positive number that may have one plus
before it, any number of leading zeros, and blanks around it. -/
def limit? (characters : List Char) : Option Nat :=
  let trimmed := trimBlanks characters
  let digits := match trimmed with
    | '+' :: digits => digits
    | digits => digits
  if digits.isEmpty || !digits.all Char.isDigit then none
  else
    let limit := decimalValue 0 digits
    if 1 ≤ limit && limit ≤ greatestLimit then some limit else none

/-- The warning that a setting is ignored. -/
def ignored (raw : String) : Log.Record :=
  ⟨.warn, "ignoring " ++ limitVariable ++ ": expected a positive integer", [("value", raw)]⟩

/-- The limit that is in force, given the variable if it is set, and what is logged about it. -/
def limitOf : Option String → Nat × List Log.Record
  | none => (defaultLimit, [])
  | some raw =>
      match limit? raw.toList with
      | some limit => (limit, [])
      | none => (defaultLimit, [ignored raw])

end JsonForms.Settings
