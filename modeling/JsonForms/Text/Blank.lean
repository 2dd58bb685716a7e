import JsonForms.Text.CodeRange

/-!
# Blank characters

The characters with the property White_Space, and the text between the blanks
that surround it.
-/

namespace JsonForms.Text

/-- The code points with the property White_Space, in ascending order. -/
def whiteSpaceRanges : List CodeRange := [
    ⟨0x9, 0xd⟩, ⟨0x20, 0x20⟩, ⟨0x85, 0x85⟩, ⟨0xa0, 0xa0⟩, ⟨0x1680, 0x1680⟩,
    ⟨0x2000, 0x200a⟩, ⟨0x2028, 0x2029⟩, ⟨0x202f, 0x202f⟩, ⟨0x205f, 0x205f⟩, ⟨0x3000, 0x3000⟩]

/-- Whether a character has the property White_Space. -/
def isBlank (character : Char) : Bool :=
  inRanges whiteSpaceRanges character

/-- The characters without the blanks at either end. -/
def trimBlanks (characters : List Char) : List Char :=
  ((characters.dropWhile isBlank).reverse.dropWhile isBlank).reverse

end JsonForms.Text
