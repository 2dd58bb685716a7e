import JsonForms.Text.Quoted
import JsonForms.Value.Basic

/-!
# Shown values

A string is shown as it is. Inside an array it is quoted, so that the shown
array tells where its slots end and what kind each of them is. A shown value
goes out in pieces, which are its text.
-/

namespace JsonForms.Value

mutual

/-- The form of a value inside an array. -/
def slotText : Value → String
  | .int value => toString value
  | .str text => Text.quote text
  | .bool true => "true"
  | .bool false => "false"
  | .nothing => "none"
  | .array slots => "[" ++ ", ".intercalate (slotTexts slots) ++ "]"

/-- The forms of the slots of an array. -/
def slotTexts : List Value → List String
  | [] => []
  | slot :: following => slot.slotText :: slotTexts following

end

/-- The shown form of a value. -/
def text : Value → String
  | .str text => text
  | value => value.slotText

mutual

/-- The pieces in which a value inside an array goes out. -/
def slotPieces : Value → List String
  | .int value => [toString value]
  | .str text => [Text.quote text]
  | .bool true => ["true"]
  | .bool false => ["false"]
  | .nothing => ["none"]
  | .array slots => "[" :: slotsPieces slots ++ ["]"]

/-- The pieces in which the slots of an array go out, each slot but the first
after a separator. -/
def slotsPieces : List Value → List String
  | [] => []
  | [slot] => slot.slotPieces
  | slot :: next :: following => slot.slotPieces ++ ", " :: slotsPieces (next :: following)

end

/-- The pieces in which a value goes out. -/
def pieces : Value → List String
  | .str text => [text]
  | value => value.slotPieces

mutual

/-- The pieces of a slot make up its text. -/
theorem join_slotPieces : ∀ value : Value, String.join value.slotPieces = value.slotText
  | .int value => by simp [slotPieces, slotText]
  | .str text => by simp [slotPieces, slotText]
  | .bool true => by simp [slotPieces, slotText]
  | .bool false => by simp [slotPieces, slotText]
  | .nothing => by simp [slotPieces, slotText]
  | .array slots => by
      simp [slotPieces, slotText, join_slotsPieces slots, String.append_assoc]

/-- The pieces of slots make up their texts, with commas between them. -/
theorem join_slotsPieces : ∀ slots : List Value,
    String.join (slotsPieces slots) = ", ".intercalate (slotTexts slots)
  | [] => by simp [slotsPieces, slotTexts]
  | [slot] => by simp [slotsPieces, slotTexts, join_slotPieces slot]
  | slot :: next :: following => by
      simp [slotsPieces, join_slotPieces slot, join_slotsPieces (next :: following), slotTexts,
        String.append_assoc]

end

/-- The pieces of a value are its text. -/
@[simp]
theorem join_pieces (value : Value) : String.join value.pieces = value.text := by
  cases value with
  | str text => simp [pieces, Value.text]
  | _ => exact join_slotPieces _

end JsonForms.Value
