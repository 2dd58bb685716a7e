import JsonForms.Source.Position
import JsonForms.Proofs.Text.ByteOrder
import JsonForms.Text.Bytes
import Mathlib.Data.List.Induction

/-!
# The places of bytes

`Position.ofByte` tells the line and the column of a byte in a text from the bytes before it
alone. `Position.advance` goes through the characters of a text and gives the place after some
number of bytes. For a byte that is no newline the place after it is the place of it; the place
after a newline is on the next line, before its first byte.
-/

namespace JsonForms

namespace Text

/-- The byte of a newline. -/
def newlineByte : UInt8 := 10

/-- The bytes of a text are those of its characters, in order. -/
theorem bytes_eq_flatMap (text : String) :
    bytes text = text.toList.flatMap String.utf8EncodeChar := by
  rw [bytes, ← String.utf8Encode_toList, List.utf8Encode, List.toList_data_toByteArray]

/-- Characters have as many bytes as they are counted to have. -/
theorem length_flatMap_utf8EncodeChar (characters : List Char) :
    (characters.flatMap String.utf8EncodeChar).length = byteCount characters := by
  induction characters with
  | nil => rfl
  | cons character following inductionHypothesis =>
      rw [List.flatMap_cons, List.length_append, String.length_utf8EncodeChar,
        inductionHypothesis, byteCount_cons]

/-- The byte of a newline is part of no other character. -/
theorem newlineByte_notMem {character : Char} (noNewline : character ≠ '\n') :
    newlineByte ∉ String.utf8EncodeChar character := by
  intro member
  have listed : 10 ∈ encoding character.toNat := by
    rw [← map_toNat_utf8EncodeChar]
    exact List.mem_map.mpr ⟨newlineByte, member, rfl⟩
  have code : character.toNat = 10 := by
    revert listed
    unfold encoding trailingCount
    split_ifs <;> simp [leadingBase, trailing] <;> omega
  exact noNewline (Char.toNat_inj.mp code)

end Text

namespace Position

open Text

/-- The line and the column of a byte of a text, both counted from one, given how many bytes
stand before it. A newline is the last byte of the line that it ends. -/
def ofByte (bytes : List UInt8) (before : Nat) : Position :=
  ⟨1 + (bytes.take before).count newlineByte,
    1 + ((bytes.take before).reverse.takeWhile (· ≠ newlineByte)).length⟩

/-- The columns of bytes are counted from one. -/
theorem one_le_column_ofByte (bytes : List UInt8) (before : Nat) :
    1 ≤ (ofByte bytes before).column :=
  Nat.le_add_right _ _

/-- The place after one more byte. -/
def pastByte (position : Position) (byte : UInt8) : Position :=
  if byte = newlineByte then ⟨position.line + 1, 0⟩ else ⟨position.line, position.column + 1⟩

/-- Bytes without a newline stay on their line. -/
theorem foldl_pastByte_of_notMem {bytes : List UInt8} (position : Position)
    (noNewline : newlineByte ∉ bytes) :
    bytes.foldl pastByte position = ⟨position.line, position.column + bytes.length⟩ := by
  induction bytes generalizing position with
  | nil => rfl
  | cons byte following inductionHypothesis =>
      obtain ⟨differs, later⟩ := not_or.mp (mt List.mem_cons.mpr noNewline)
      rw [List.foldl_cons, inductionHypothesis _ later, pastByte, if_neg (Ne.symm differs),
        List.length_cons, Nat.add_assoc, Nat.add_comm 1]

/-- A character leads to the place after its bytes. -/
theorem past_eq_foldl (position : Position) (character : Char) :
    position.past character = (String.utf8EncodeChar character).foldl pastByte position := by
  by_cases newline : character = '\n'
  · subst newline
    rfl
  · rw [past, if_neg newline, foldl_pastByte_of_notMem position (newlineByte_notMem newline),
      String.length_utf8EncodeChar]

/-- Going on by some bytes leads to the place after them, wherever characters end. -/
theorem advance_eq_foldl (position : Position) (count : Nat) (characters : List Char) :
    position.advance count characters =
      ((characters.flatMap String.utf8EncodeChar).take count).foldl pastByte position := by
  induction characters generalizing position count with
  | nil =>
      rw [List.flatMap_nil, List.take_nil]
      rfl
  | cons character following inductionHypothesis =>
      rw [advance, List.flatMap_cons]
      split
      next inside =>
        have noNewline : newlineByte ∉ (String.utf8EncodeChar character).take count := by
          by_cases newline : character = '\n'
          · subst newline
            rw [Nat.lt_one_iff.mp inside]
            exact List.not_mem_nil
          · exact fun member => newlineByte_notMem newline (List.mem_of_mem_take member)
        rw [List.take_append_of_le_length (by rw [String.length_utf8EncodeChar]; omega),
          foldl_pastByte_of_notMem position noNewline, List.length_take,
          String.length_utf8EncodeChar, Nat.min_eq_left (Nat.le_of_lt inside)]
      next beyond =>
        have whole : (String.utf8EncodeChar character).take count =
            String.utf8EncodeChar character :=
          List.take_of_length_le (by rw [String.length_utf8EncodeChar]; omega)
        rw [inductionHypothesis, past_eq_foldl, List.take_append, List.foldl_append, whole,
          String.length_utf8EncodeChar]

/-- The place after some bytes is one byte before that of the next byte. -/
theorem foldl_pastByte_start (bytes : List UInt8) :
    bytes.foldl pastByte start =
      ⟨1 + bytes.count newlineByte, (bytes.reverse.takeWhile (· ≠ newlineByte)).length⟩ := by
  induction bytes using List.reverseRecOn with
  | nil => rfl
  | append_singleton front byte inductionHypothesis =>
      rw [List.foldl_append, inductionHypothesis, List.foldl_cons, List.foldl_nil, pastByte]
      by_cases newline : byte = newlineByte
      · subst newline
        simp [List.count_append, Nat.add_assoc]
      · simp [List.count_append, newline]

/-- The place after a byte is its own place, or the start of the next line if it is a newline. -/
theorem advance_of_byte {characters : List Char} {before : Nat} {byte : UInt8}
    (found : (characters.flatMap String.utf8EncodeChar)[before]? = some byte) :
    start.advance (before + 1) characters =
      if byte = newlineByte then
        ⟨(ofByte (characters.flatMap String.utf8EncodeChar) before).line + 1, 0⟩
      else ofByte (characters.flatMap String.utf8EncodeChar) before := by
  rw [advance_eq_foldl, List.take_add_one, found, List.foldl_append, foldl_pastByte_start]
  simp only [Option.toList_some, List.foldl_cons, List.foldl_nil, pastByte, ofByte, Nat.add_comm 1]

end Position

end JsonForms
