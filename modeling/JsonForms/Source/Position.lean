/-!
# Positions in a text

A position is what is said of a place in a text: the number of its line and
how many bytes of that line come before it. Columns count bytes of the UTF-8
form, so a position may fall inside a character. Places are counted without
bounds; what is told of them has words of 32 bits for the line and the column.
-/

namespace JsonForms

/-- A line, counted from one, and the number of its bytes that come before the place. -/
structure Position where
  line : Nat
  column : Nat
deriving DecidableEq, Repr, Inhabited

namespace Position

/-- The place before the first byte of a text. -/
def start : Position := ⟨1, 0⟩

/-- The place after one more character. A newline opens the next line. -/
def past (position : Position) (character : Char) : Position :=
  if character = '\n' then ⟨position.line + 1, 0⟩
  else ⟨position.line, position.column + character.utf8Size⟩

/-- The place after the next `count` bytes, or after all of them if there are fewer. -/
def advance (position : Position) (count : Nat) : List Char → Position
  | [] => position
  | character :: following =>
      if count < character.utf8Size then ⟨position.line, position.column + count⟩
      else (position.past character).advance (count - character.utf8Size) following

/-- The greatest line and the greatest column that can be told. -/
def greatest : Nat := 0xffffffff

/-- A place as it is told. The greatest line or column stands for all beyond it. -/
def clamped (position : Position) : Position :=
  ⟨min position.line greatest, min position.column greatest⟩

/-- A place is told as it is exactly when neither its line nor its column is too great. -/
theorem clamped_eq_self_iff (position : Position) :
    position.clamped = position ↔ position.line ≤ greatest ∧ position.column ≤ greatest := by
  obtain ⟨line, column⟩ := position
  simp only [clamped, mk.injEq]
  omega

/-- Line and column, with a colon between them. -/
def text (position : Position) : String :=
  toString position.line ++ ":" ++ toString position.column

end Position

end JsonForms
