import JsonForms.Text.Bytes

/-!
# Excerpts of long lines

A message quotes the part of a line around the place it speaks of. The window
reaches the same number of bytes to either side and is widened to whole
characters, so an excerpt never holds part of a character.
-/

namespace JsonForms.Excerpt

open Text

/-- Bytes of context on either side of the quoted place. -/
def radius : Nat := 40

/-- The mark for text that was left out. -/
def omission : List Char := ['.', '.', '.']

/-- The characters after the longest run from the front that fits into `room`
bytes, with the size of that run added to `skipped`. -/
def skipFitting (room skipped : Nat) : List Char → Nat × List Char
  | [] => (skipped, [])
  | character :: following =>
      if character.utf8Size ≤ room then
        skipFitting (room - character.utf8Size) (skipped + character.utf8Size) following
      else (skipped, character :: following)

/-- The shortest run of characters from the front that has `count` bytes or
more, or all of them if there are fewer. -/
def takeCovering : Nat → List Char → List Char
  | 0, _ => []
  | _ + 1, [] => []
  | count + 1, character :: following =>
      character :: takeCovering (count + 1 - character.utf8Size) following

/-- The part of a line around a column. Columns count bytes from one; column
zero stands for the first byte, and one past the end for the end. -/
def around (line : List Char) (column : Nat) : List Char :=
  let size := byteCount line
  let centre := min (column - 1) size
  let (start, following) := skipFitting (centre - radius) 0 line
  let window := takeCovering (min (centre + radius) size - start) following
  (if 0 < start then omission else []) ++ window ++
    (if start + byteCount window < size then omission else [])

end JsonForms.Excerpt
