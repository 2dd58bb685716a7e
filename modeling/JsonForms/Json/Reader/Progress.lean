import JsonForms.Json.Fault

/-!
# Progress of a reader

A reader takes something off the front of a text. What it returns carries the
rest of the text with the proof that it is shorter, which is why reading ends.
-/

namespace JsonForms.Json

/-- Something read off the front of a text, and a rest of fewer than `bound` characters. -/
structure Progress (α : Type) (bound : Nat) where
  value : α
  rest : List Char
  shorter : rest.length < bound

namespace Progress

/-- The same rest with another value. -/
def map {α β : Type} {bound : Nat} (change : α → β) (progress : Progress α bound) :
    Progress β bound :=
  ⟨change progress.value, progress.rest, progress.shorter⟩

/-- The same progress within a longer text. -/
def widen {α : Type} {bound wider : Nat} (within : bound ≤ wider)
    (progress : Progress α bound) : Progress α wider :=
  ⟨progress.value, progress.rest, Nat.lt_of_lt_of_le progress.shorter within⟩

end Progress

/-- What becomes of reading from a text of `bound` characters. -/
abbrev Reading (α : Type) (bound : Nat) := Except Fault (Progress α bound)

/-- The characters between the tokens of a JSON text. -/
def isSpace (character : Char) : Bool :=
  character = ' ' || character = '\n' || character = '\t' || character = '\r'

/-- The next character that is no space, if there is one. -/
def nextVisible {bound : Nat} (input : List Char) (fits : input.length ≤ bound) :
    Option (Progress Char bound) :=
  match input with
  | [] => none
  | character :: following =>
      if isSpace character then nextVisible following (Nat.le_of_lt fits)
      else some ⟨character, following, fits⟩

end JsonForms.Json
