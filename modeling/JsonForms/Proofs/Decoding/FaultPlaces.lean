import JsonForms.Proofs.Decoding.Faults
import JsonForms.Proofs.Decoding.Looked
import JsonForms.Proofs.Source.Places

/-!
# The byte that a fault points at

A reader stops at a byte, the last one it looked at. The position that is reported is the one
after that byte, its column being the number of bytes of the line that come before. This is the
place of the byte itself, lines and columns counted from one, unless the byte is a newline. The
place after a newline is on the next line, before its first byte, so then the position and the
excerpt are those of a line that the byte is not on. A line or a column that is too great to be
told is told as the greatest one; this is the only other way in which the report is not about
the byte.
-/

namespace JsonForms.Source

open Text

/-- A report points at a byte of a source, given how many bytes come before it: the position is
that of the byte and the excerpt is taken around it from the line that the byte is on. -/
def PointsAt (source : Source) (position : Position) (excerpt : String) (before : Nat) : Prop :=
  position = Position.ofByte (bytes source.text) before ∧
    ∃ line, source.line? position.line = some line ∧
      excerpt = String.ofList (Excerpt.around line.toList position.column)

/-- A report of the place of a byte as it is told points at the byte exactly when the line and
the column of the byte can be told. -/
theorem pointsAt_iff_of_clamped {source : Source} {position : Position} {excerpt : String}
    {before : Nat} (told : position = (Position.ofByte (bytes source.text) before).clamped)
    (quoted : ∃ line, source.line? position.line = some line ∧ excerpt = String.ofList
      (Excerpt.around line.toList (Position.ofByte (bytes source.text) before).column)) :
    source.PointsAt position excerpt before ↔
      (Position.ofByte (bytes source.text) before).line ≤ Position.greatest ∧
        (Position.ofByte (bytes source.text) before).column ≤ Position.greatest := by
  rw [← Position.clamped_eq_self_iff, ← told]
  constructor
  · exact And.left
  · intro same
    refine ⟨same, ?_⟩
    rwa [← same] at quoted

/-- What has been looked at is what was consumed and some bytes more, but no more than there are. -/
theorem looked_eq_consumed {fault : Json.Fault} {text consumed : List Char}
    (split : text = consumed ++ fault.rest) :
    fault.looked text = min (byteCount text) (byteCount consumed + fault.ahead) := by
  have size := congrArg byteCount split
  rw [byteCount_append] at size
  dsimp only [Json.Fault.looked]
  omega

/-- Where reading stops there is a byte that was looked at last. The place behind it is the
place of the byte, or the front of the next line if the byte is a newline. -/
theorem exists_byte_of_fault {source : Source} {fault : Json.Fault} (nonempty : source.text ≠ "")
    (read : Json.read source.text.toList = .error fault) :
    ∃ consumed before byte, source.text.toList = consumed ++ fault.rest ∧
      fault.looked source.text.toList = before + 1 ∧
      before + 1 = min (bytes source.text).length (byteCount consumed + fault.ahead) ∧
      (bytes source.text)[before]? = some byte ∧
      Position.start.advance (before + 1) source.text.toList =
        if byte = newlineByte then ⟨(Position.ofByte (bytes source.text) before).line + 1, 0⟩
        else Position.ofByte (bytes source.text) before := by
  have arises := Json.arisesIn_of_read read
  obtain ⟨consumed, split⟩ := arises.suffix
  have stopped := looked_eq_consumed split.symm
  obtain ⟨before, looked⟩ := Nat.exists_eq_add_of_le'
    (arises.one_le_looked (mt String.toList_eq_nil_iff.mp nonempty))
  have sized : (bytes source.text).length = byteCount source.text.toList := by
    rw [bytes_eq_flatMap, length_flatMap_utf8EncodeChar]
  have inside : before < (bytes source.text).length := by omega
  obtain ⟨byte, found⟩ : ∃ byte, (bytes source.text)[before]? = some byte :=
    ⟨_, List.getElem?_eq_getElem inside⟩
  refine ⟨consumed, before, byte, split.symm, looked, by rw [sized, ← stopped, looked], found, ?_⟩
  rw [bytes_eq_flatMap] at found
  rw [Position.advance_of_byte found, ← bytes_eq_flatMap]

/-- Reading a source that is not empty stops at a byte of it. What is reported points at that
byte exactly when it is no newline and its line and its column can be told. The position is
the place of the byte as it is told, and the excerpt is taken around the column of the byte.
For a newline it is the place before the first byte of the next line, in column zero, and the
excerpt is one of that line. -/
theorem faults_point_at_their_byte (source : Source) (name : String) (position : Position)
    (complaint : Json.Complaint) (excerpt : String) (nonempty : source.text ≠ "")
    (failed : source.decode = .error (.unreadable name position complaint excerpt)) :
    ∃ fault consumed looked byte place, Json.read source.text.toList = .error fault ∧
      source.text.toList = consumed ++ fault.rest ∧
      looked = min (bytes source.text).length (byteCount consumed + fault.ahead) ∧
      1 ≤ looked ∧ (bytes source.text)[looked - 1]? = some byte ∧
      place = Position.ofByte (bytes source.text) (looked - 1) ∧
      (source.PointsAt position excerpt (looked - 1) ↔
        byte ≠ newlineByte ∧ place.line ≤ Position.greatest ∧ place.column ≤ Position.greatest) ∧
      1 ≤ position.line ∧ (1 ≤ position.column ↔ byte ≠ newlineByte) ∧
      (byte ≠ newlineByte → position = place.clamped ∧
        ∃ line, source.line? position.line = some line ∧
          excerpt = String.ofList (Excerpt.around line.toList place.column)) ∧
      (byte = newlineByte → position = (⟨place.line + 1, 0⟩ : Position).clamped ∧
        ∃ line, source.line? position.line = some line ∧
          excerpt = String.ofList (Excerpt.around line.toList 0)) := by
  obtain ⟨fault, read, reported⟩ := fault_of_unreadable failed
  obtain ⟨reached, index, raw, passed, told, below, -, -, onLine, rfl⟩ :=
    excerpt_of_unreadable reported
  have quoted : ∃ line, source.line? position.line = some line ∧
      String.ofList (Excerpt.around (withoutReturns raw) reached.column) =
        String.ofList (Excerpt.around line.toList reached.column) :=
    ⟨_, onLine, by rw [String.toList_ofList]⟩
  obtain ⟨consumed, before, byte, split, looked, stopped, found, place⟩ :=
    exists_byte_of_fault nonempty read
  rw [looked, place] at passed
  refine ⟨fault, consumed, before + 1, byte, _, read, split, stopped, Nat.succ_pos before, found,
    rfl, ?_⟩
  rw [Nat.add_sub_cancel]
  have line : 1 ≤ position.line := below.ge.trans' (Nat.succ_pos index)
  by_cases newline : byte = newlineByte
  · rw [if_pos newline] at passed
    subst passed
    have column : position.column = 0 := congrArg Position.column told
    refine ⟨⟨fun points => ?_, fun other => absurd newline other.1⟩, line,
      ⟨fun some => ?_, fun other => absurd newline other⟩, fun other => absurd newline other,
      fun _ => ⟨told, quoted⟩⟩
    · have positive := Position.one_le_column_ofByte (bytes source.text) before
      rw [← points.1, column] at positive
      cases positive
    · rw [column] at some
      cases some
  · rw [if_neg newline] at passed
    subst passed
    have column : 1 ≤ position.column := by
      rw [told]
      exact Nat.le_min.mpr ⟨Position.one_le_column_ofByte _ _, by decide⟩
    refine ⟨?_, line, ⟨fun _ => newline, fun _ => column⟩, fun _ => ⟨told, quoted⟩,
      fun other => absurd other newline⟩
    rw [pointsAt_iff_of_clamped told quoted]
    exact ⟨fun small => ⟨newline, small⟩, And.right⟩

/-- A bracket on the second line, behind a comma and a character of two bytes. -/
theorem faults_point_at_their_byte_bracket :
    let source : Source := ⟨"p", "[\n\"é\",]"⟩
    source.decode = .error (.unreadable "p" ⟨2, 6⟩ .trailingComma "\"é\",]") ∧
      (bytes source.text)[7]? = some 0x5d ∧ source.PointsAt ⟨2, 6⟩ "\"é\",]" 7 := by
  intro source
  have stopped : Json.read source.text.toList = .error ⟨.trailingComma, [']'], 1⟩ := by cbv
  have failed : source.decode = .error (.unreadable "p" ⟨2, 6⟩ .trailingComma "\"é\",]") :=
    @decode_of_place source _ ⟨2, 6⟩ ['"', 'é', '"', ',', ']'] stopped (by decide) (by decide)
  have bracket : (bytes source.text)[7]? = some 0x5d := by decide
  obtain ⟨fault, consumed, looked, byte, _, read, split, reached, _, found, rfl, points, _⟩ :=
    faults_point_at_their_byte source "p" ⟨2, 6⟩ .trailingComma "\"é\",]" (by decide) failed
  obtain rfl := Except.error.inj (read.symm.trans stopped)
  have before : source.text.toList = ['[', '\n', '"', 'é', '"', ','] ++ [']'] := by decide
  obtain rfl := List.append_cancel_right (before.symm.trans split)
  obtain rfl : looked = 8 := reached
  cases bracket.symm.trans found
  have place : Position.ofByte (bytes source.text) 7 = ⟨2, 6⟩ := by decide
  rw [Nat.add_sub_cancel 7 1, place] at points
  exact ⟨failed, bracket, points.mpr (by decide)⟩

/-- A newline in a string ends the first line, and the second line is quoted for it. -/
theorem newline_is_not_pointed_at :
    let source : Source := ⟨"p", "[\"a\nb\"]"⟩
    source.decode = .error (.unreadable "p" ⟨2, 0⟩ .controlCharacter "b\"]") ∧
      Json.read source.text.toList = .error ⟨.controlCharacter, ['\n', 'b', '"', ']'], 1⟩ ∧
      Position.ofByte (bytes source.text) 3 = ⟨1, 4⟩ ∧ source.line? 1 = some "[\"a" ∧
      ¬ source.PointsAt ⟨2, 0⟩ "b\"]" 3 := by
  intro source
  have stopped : Json.read source.text.toList =
      .error ⟨.controlCharacter, ['\n', 'b', '"', ']'], 1⟩ := by cbv
  have failed : source.decode = .error (.unreadable "p" ⟨2, 0⟩ .controlCharacter "b\"]") :=
    @decode_of_place source _ ⟨2, 0⟩ ['b', '"', ']'] stopped (by decide) (by decide)
  have place : Position.ofByte (bytes source.text) 3 = ⟨1, 4⟩ := by decide
  refine ⟨failed, stopped, place, by cbv, ?_⟩
  rintro ⟨same, _⟩
  rw [place] at same
  cases same

end JsonForms.Source
