import JsonForms.Proofs.Grammar.Lexemes
import JsonForms.Proofs.Grammar.RoundTrip
import JsonForms.Proofs.Printing.Quoted
import JsonForms.Value.Printer
import Std.Data.String.ToInt

/-!
# Shown arrays

A shown array can be taken apart again. The first character of a slot tells the
kind of its value, and what follows a slot is a comma or the closing bracket,
which no integer contains; strings and arrays end by a quote and a bracket of
their own. So equal texts show equal arrays, whatever their slots hold and however
deep arrays lie in each other.
-/

namespace JsonForms.Value

/-! ## The beginning and the end of a slot -/

/-- The kind of a value whose form inside an array begins so. -/
def kindOf : Char → Kind
  | '"' => .string
  | 't' | 'f' => .boolean
  | '[' => .array
  | 'n' => .nothing
  | _ => .integer

/-- What begins with a digit is an integer. -/
theorem kindOf_of_isDigit {digit : Char} (isDigit : digit.isDigit = true) :
    kindOf digit = .integer := by
  unfold kindOf
  split <;> first | rfl | cases isDigit

/-- Whether a character follows slots. -/
def endsSlot (character : Char) : Bool := character = ',' || character = ']'

/-- No character of an integer literal ends a slot. -/
theorem endsSlot_of_integer {text : List Char} {value : Int}
    (literal : Grammar.Integer text value) :
    ∀ character ∈ text, endsSlot character = false := by
  intro character member
  have plain := (Grammar.plain_of_integer literal character member).1
  rw [Bool.eq_false_iff] at plain ⊢
  intro ends
  refine plain ?_
  obtain rfl | rfl : character = ',' ∨ character = ']' := by simpa [endsSlot] using ends
  · decide
  · decide

/-- An array inside an array is its slots in brackets, with commas between them. -/
theorem toList_array (slots : List Value) (rest : List Char) :
    (array slots).slotText.toList ++ rest =
      '[' :: ((", ".intercalate (slotTexts slots)).toList ++ ']' :: rest) := by
  simp [slotText]

/-- A slot begins with a character that tells its kind and follows no slot. -/
theorem head_of_slotText (value : Value) :
    ∃ first following, value.slotText.toList = first :: following ∧ kindOf first = value.kind ∧
      endsSlot first = false := by
  cases value with
  | int value =>
      have literal := integer_toString value
      have noEnd := endsSlot_of_integer literal
      obtain ⟨first, following, split, opening⟩ := Json.head_of_integer literal
      rw [split] at noEnd
      refine ⟨first, following, by rw [slotText, split], ?_, noEnd first (.head _)⟩
      obtain isDigit | rfl := opening
      · exact kindOf_of_isDigit isDigit
      · rfl
  | str text => exact ⟨'"', _, by rw [slotText, Text.toList_quote]; rfl, rfl, rfl⟩
  | bool value => cases value <;> exact ⟨_, _, rfl, rfl, rfl⟩
  | array slots =>
      have opened := toList_array slots []
      rw [List.append_nil] at opened
      exact ⟨'[', _, opened, rfl, rfl⟩
  | nothing => exact ⟨_, _, rfl, rfl, rfl⟩

/-- Slots of different kinds begin differently. -/
theorem kind_of_slotText {left right : Value} {rest more : List Char}
    (same : left.slotText.toList ++ rest = right.slotText.toList ++ more) :
    left.kind = right.kind := by
  obtain ⟨first, following, split, kind, _⟩ := left.head_of_slotText
  obtain ⟨other, others, splitOther, kindOther, _⟩ := right.head_of_slotText
  rw [split, splitOther] at same
  rw [← kind, ← kindOther, (List.cons.inj same).1]

/-! ## Slots one after another -/

/-- What stands after a slot when so many more slots follow, up to the end of the text. -/
def afterSlot (rest : List Char) : List Value → List Char
  | [] => ']' :: rest
  | next :: following => ',' :: ' ' :: (next.slotText.toList ++ afterSlot rest following)

/-- Behind a slot stands a comma or a bracket. -/
theorem stopsAt_afterSlot (rest : List Char) (slots : List Value) :
    Text.StopsAt endsSlot (afterSlot rest slots) := by
  cases slots with
  | nil => exact ⟨']', rest, rfl, rfl⟩
  | cons => exact ⟨',', _, rfl, rfl⟩

/-- The inside of an array that has slots, and what stands after it. -/
theorem slots_eq_afterSlot (first : Value) (slots : List Value) (rest : List Char) :
    (", ".intercalate (slotTexts (first :: slots))).toList ++ ']' :: rest =
      first.slotText.toList ++ afterSlot rest slots := by
  induction slots generalizing first with
  | nil => simp [slotTexts, afterSlot]
  | cons next slots inductionHypothesis =>
      have separator : ", ".toList = [',', ' '] := rfl
      rw [slotTexts, slotTexts, String.intercalate_cons_cons, ← slotTexts, String.toList_append,
        String.toList_append, List.append_assoc, List.append_assoc, inductionHypothesis next,
        separator, afterSlot, List.cons_append, List.cons_append, List.nil_append]

/-- An empty array is told from one that has slots. -/
theorem empty_ne_slots {first : Value} {slots : List Value} {rest more : List Char} :
    (", ".intercalate (slotTexts [])).toList ++ ']' :: rest ≠
      (", ".intercalate (slotTexts (first :: slots))).toList ++ ']' :: more := by
  intro same
  obtain ⟨opening, following, split, _, noEnd⟩ := first.head_of_slotText
  rw [slots_eq_afterSlot, split] at same
  have closes : ']' = opening := (List.cons.inj same).1
  rw [← closes] at noEnd
  cases noEnd

mutual

/-- A slot is told by any text that begins with it and goes on with the end of a
slot, and so is the rest. -/
theorem slot_unique : ∀ (left right : Value) {rest more : List Char},
    Text.StopsAt endsSlot rest → Text.StopsAt endsSlot more →
      left.slotText.toList ++ rest = right.slotText.toList ++ more → left = right ∧ rest = more
  | .int left, right, _, _, ended, endedOther, same => by
      have kinds := kind_of_slotText same
      cases right with
      | int right =>
          rw [slotText, slotText] at same
          obtain ⟨texts, rests⟩ := Text.run_unique
            (endsSlot_of_integer (integer_toString left)) ended
            (endsSlot_of_integer (integer_toString right)) endedOther same
          exact ⟨congrArg int (Int.repr_injective (String.toList_inj.mp texts)), rests⟩
      | str | bool | array | nothing => cases kinds
  | .str left, right, _, _, _, _, same => by
      have kinds := kind_of_slotText same
      cases right with
      | str right =>
          rw [slotText, slotText] at same
          obtain ⟨texts, rests⟩ := Text.quote_unique same
          exact ⟨congrArg str texts, rests⟩
      | int | bool | array | nothing => cases kinds
  | .bool left, right, _, _, _, _, same => by
      have kinds := kind_of_slotText same
      cases right with
      | bool right => cases left <;> cases right <;> simp [slotText] at same ⊢ <;> exact same
      | int | str | array | nothing => cases kinds
  | .array left, right, _, _, _, _, same => by
      have kinds := kind_of_slotText same
      cases right with
      | array right =>
          rw [toList_array, toList_array] at same
          obtain ⟨slots, rests⟩ := slots_unique left right (List.cons.inj same).2
          exact ⟨congrArg array slots, rests⟩
      | int | str | bool | nothing => cases kinds
  | .nothing, right, _, _, _, _, same => by
      have kinds := kind_of_slotText same
      cases right with
      | nothing => exact ⟨rfl, List.append_cancel_left same⟩
      | int | str | bool | array => cases kinds

/-- The slots of an array are told by any text that begins with its inside and
the closing bracket, and so is the rest. -/
theorem slots_unique : ∀ (left right : List Value) {rest more : List Char},
    (", ".intercalate (slotTexts left)).toList ++ ']' :: rest =
        (", ".intercalate (slotTexts right)).toList ++ ']' :: more →
      left = right ∧ rest = more
  | [], [], _, _, same => ⟨rfl, (List.cons.inj (List.append_cancel_left same)).2⟩
  | [], _ :: _, _, _, same => absurd same empty_ne_slots
  | _ :: _, [], _, _, same => absurd same.symm empty_ne_slots
  | first :: left, other :: right, rest, more, same => by
      rw [slots_eq_afterSlot, slots_eq_afterSlot] at same
      obtain ⟨rfl, following⟩ := slot_unique first other (stopsAt_afterSlot rest left)
        (stopsAt_afterSlot more right) same
      obtain ⟨rfl, rests⟩ := afterSlot_unique left right following
      exact ⟨rfl, rests⟩

/-- The slots that follow a slot are told by what stands after it. -/
theorem afterSlot_unique : ∀ (left right : List Value) {rest more : List Char},
    afterSlot rest left = afterSlot more right → left = right ∧ rest = more
  | [], [], _, _, same => ⟨rfl, (List.cons.inj same).2⟩
  | [], _ :: _, _, _, same => absurd (List.cons.inj same).1 (by decide)
  | _ :: _, [], _, _, same => absurd (List.cons.inj same).1 (by decide)
  | next :: left, other :: right, rest, more, same => by
      rw [afterSlot, afterSlot] at same
      obtain ⟨rfl, following⟩ := slot_unique next other (stopsAt_afterSlot rest left)
        (stopsAt_afterSlot more right) (List.cons.inj (List.cons.inj same).2).2
      obtain ⟨rfl, rests⟩ := afterSlot_unique left right following
      exact ⟨rfl, rests⟩

end

/-- Two arrays are shown by the same text exactly when they are equal. -/
theorem arrays_shown_alike_iff (left right : List Value) :
    (array left).text = (array right).text ↔ array left = array right := by
  constructor
  · intro same
    have texts : (array left).slotText.toList ++ [] = (array right).slotText.toList ++ [] :=
      congrArg (fun text => text.toList ++ []) same
    rw [toList_array, toList_array] at texts
    obtain ⟨slots, _⟩ := slots_unique left right (List.cons.inj texts).2
    exact congrArg array slots
  · intro same
    rw [same]

end JsonForms.Value
