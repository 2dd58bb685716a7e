import JsonForms.Text.GraphemeExtend
import JsonForms.Text.Unassigned

/-!
# Printable characters

A character is printable when showing it as it is leaves a mark of its own on
the page. What has no glyph, what joins the character before it, and every
blank but the space are not printable. Two exceptions follow from this: letters
that only fill a place are not printable, and the halfwidth sound marks of
katakana, which extend a grapheme but fill a cell of their own, are. Categories
and properties are those of Unicode 17.0.
-/

namespace JsonForms.Text

/-- The code points of general category Cc, control characters. -/
def controlRanges : List CodeRange := [⟨0x0, 0x1f⟩, ⟨0x7f, 0x9f⟩]

/-- The code points of general category Cf, format characters. -/
def formatRanges : List CodeRange := [
    ⟨0xad, 0xad⟩, ⟨0x600, 0x605⟩, ⟨0x61c, 0x61c⟩, ⟨0x6dd, 0x6dd⟩, ⟨0x70f, 0x70f⟩,
    ⟨0x890, 0x891⟩, ⟨0x8e2, 0x8e2⟩, ⟨0x180e, 0x180e⟩, ⟨0x200b, 0x200f⟩, ⟨0x202a, 0x202e⟩,
    ⟨0x2060, 0x2064⟩, ⟨0x2066, 0x206f⟩, ⟨0xfeff, 0xfeff⟩, ⟨0xfff9, 0xfffb⟩,
    ⟨0x110bd, 0x110bd⟩, ⟨0x110cd, 0x110cd⟩, ⟨0x13430, 0x1343f⟩, ⟨0x1bca0, 0x1bca3⟩,
    ⟨0x1d173, 0x1d17a⟩, ⟨0xe0001, 0xe0001⟩, ⟨0xe0020, 0xe007f⟩]

/-- The code points of general category Co, kept for private use. -/
def privateUseRanges : List CodeRange := [
    ⟨0xe000, 0xf8ff⟩, ⟨0xf0000, 0xffffd⟩, ⟨0x100000, 0x10fffd⟩]

/-- The code points of the categories Zl, Zp and Zs: line, paragraph and space
separators, the space itself included. -/
def separatorRanges : List CodeRange := [
    ⟨0x20, 0x20⟩, ⟨0xa0, 0xa0⟩, ⟨0x1680, 0x1680⟩, ⟨0x2000, 0x200a⟩, ⟨0x2028, 0x2029⟩,
    ⟨0x202f, 0x202f⟩, ⟨0x205f, 0x205f⟩, ⟨0x3000, 0x3000⟩]

/-- The letters with the property Default_Ignorable_Code_Point: the fillers of Hangul. -/
def fillerRanges : List CodeRange := [
    ⟨0x115f, 0x1160⟩, ⟨0x3164, 0x3164⟩, ⟨0xffa0, 0xffa0⟩]

/-- The letters with the property Grapheme_Extend: the halfwidth sound marks of katakana. -/
def soundMarkRanges : List CodeRange := [⟨0xff9e, 0xff9f⟩]

/-- Whether a character joins the one before it: it extends a grapheme and is no letter. -/
def isCombining (character : Char) : Bool :=
  inRanges graphemeExtendRanges character && !inRanges soundMarkRanges character

/-- Whether a character is shown as it is. The space is the one separator that is. -/
def isPrintable (character : Char) : Bool :=
  character = ' ' ||
    !(inRanges controlRanges character || inRanges formatRanges character ||
      inRanges privateUseRanges character || inRanges separatorRanges character ||
      inRanges fillerRanges character || isCombining character ||
      inRanges unassignedRanges character)

end JsonForms.Text
