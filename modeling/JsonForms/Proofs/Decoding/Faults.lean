import JsonForms.Proofs.Decoding.Refusals
import JsonForms.Proofs.Source.Excerpts
import JsonForms.Proofs.Source.Lines

/-!
# What faults quote

A fault in a text is reported with a position and an excerpt of the line that the
position is on. The line always exists: the position comes from counting bytes up
to the fault and the line from cutting the text at newlines, and the two agree
wherever reading can stop. How long the line is does not matter to the excerpt.
A line whose number is too great to be told is reported as an earlier one, and
that one exists as well.
-/

namespace JsonForms.Source

open Text

/-- What is reported of a text at fault comes from the fault. -/
theorem fault_of_unreadable {source : Source} {name : String} {position : Position}
    {complaint : Json.Complaint} {excerpt : String}
    (failed : source.decode = .error (.unreadable name position complaint excerpt)) :
    ∃ fault, Json.read source.text.toList = .error fault ∧
      source.unreadable fault = .unreadable name position complaint excerpt := by
  cases found : Json.read source.text.toList with
  | error fault =>
      rw [decode_of_fault found] at failed
      exact ⟨fault, rfl, Except.error.inj failed⟩
  | ok json =>
      rw [decode_of_read found] at failed
      cases converted : Expr.ofJson json <;> rw [converted] at failed <;> cases failed

/-- A place in a text lies on a line of it, at its end at the latest. -/
theorem rawLine_of_advance (count : Nat) (characters : List Char) :
    ∃ index line, (Position.start.advance count characters).line = index + 1 ∧
      (rawLines characters)[index]? = some line ∧
      (Position.start.advance count characters).column ≤ byteCount line := by
  obtain ⟨index, line, below, found, bounded⟩ := Position.start.advance_within count characters
  refine ⟨index, line, ?_, found, ?_⟩
  · rw [below, Position.start, Nat.add_comm]
  · rwa [Position.start, ite_self, Nat.zero_add] at bounded

/-- The line that is told of a place in a text is a line of it. If all of its lines
can be told, it is that of the place. -/
theorem rawLine_of_clamped (count : Nat) (characters : List Char) :
    ∃ index line, (Position.start.advance count characters).clamped.line = index + 1 ∧
      (rawLines characters)[index]? = some line ∧
      (1 + characters.count '\n' ≤ Position.greatest →
        (Position.start.advance count characters).column ≤ byteCount line) := by
  obtain ⟨index, line, below, found, bounded⟩ := rawLine_of_advance count characters
  by_cases told : (Position.start.advance count characters).line ≤ Position.greatest
  · refine ⟨index, line, ?_, found, fun _ => bounded⟩
    rw [Position.clamped, Nat.min_eq_left told, below]
  · have within : index < (rawLines characters).length := (List.getElem?_eq_some_iff.mp found).1
    have earlier : Position.greatest - 1 < (rawLines characters).length := by omega
    refine ⟨Position.greatest - 1, _, ?_, List.getElem?_eq_getElem earlier, fun fewLines => ?_⟩
    · rw [Position.clamped, Nat.min_eq_right (Nat.le_of_not_le told)]
      rfl
    · rw [length_rawLines] at within
      omega

/-- The excerpt of a fault is taken around the column of its place, from the line
whose number is told. -/
theorem excerpt_of_unreadable {source : Source} {fault : Json.Fault} {name : String}
    {position : Position} {complaint : Json.Complaint} {excerpt : String}
    (reported : source.unreadable fault = .unreadable name position complaint excerpt) :
    ∃ place index raw,
      place = Position.start.advance (fault.looked source.text.toList) source.text.toList ∧
      position = place.clamped ∧ position.line = index + 1 ∧
      (rawLines source.text.toList)[index]? = some raw ∧
      (1 + source.text.toList.count '\n' ≤ Position.greatest → place.column ≤ byteCount raw) ∧
      source.line? position.line = some (String.ofList (withoutReturns raw)) ∧
      excerpt = String.ofList (Excerpt.around (withoutReturns raw) place.column) := by
  simp only [unreadable, DecodeError.unreadable.injEq] at reported
  obtain ⟨-, rfl, -, rfl⟩ := reported
  obtain ⟨index, raw, told, found, bounded⟩ :=
    rawLine_of_clamped (fault.looked source.text.toList) source.text.toList
  have quoted := lineOf_of_rawLines found
  rw [← told] at quoted
  refine ⟨_, index, raw, rfl, rfl, told, found, bounded, ?_, ?_⟩
  · rw [line?, quoted]
    rfl
  · rw [quoted, Option.getD_some]

/-- What is reported of a fault, given the place where reading stopped and the line
whose number is told. -/
theorem decode_of_place {source : Source} {fault : Json.Fault} {place : Position}
    {line : List Char} (read : Json.read source.text.toList = .error fault)
    (reached : Position.start.advance (fault.looked source.text.toList) source.text.toList = place)
    (found : lineOf place.clamped.line source.text.toList = some line) :
    source.decode = .error (.unreadable source.name place.clamped fault.complaint
      (String.ofList (Excerpt.around line place.column))) := by
  subst reached
  simp only [decode_of_fault read, unreadable, found, Option.getD_some]

/-- The position of a text at fault is on one of its lines, and the excerpt is one
of that very line, without a newline and with 92 bytes at most. Unless the text has
more lines or more bytes than can be told, the excerpt is taken around the column
of the position, which is at the end of the line at the latest, carriage returns
included. -/
theorem faults_quote_their_line (source : Source) (name : String) (position : Position)
    (complaint : Json.Complaint) (excerpt : String)
    (failed : source.decode = .error (.unreadable name position complaint excerpt)) :
    1 ≤ position.line ∧ position.line ≤ 1 + source.text.toList.count '\n' ∧
    ∃ raw column, (rawLines source.text.toList)[position.line - 1]? = some raw ∧
      source.line? position.line = some (String.ofList (withoutReturns raw)) ∧
      excerpt = String.ofList (Excerpt.around (withoutReturns raw) column) ∧
      '\n' ∉ excerpt.toList ∧ byteCount excerpt.toList ≤ 92 ∧
      (1 + source.text.toList.count '\n' ≤ Position.greatest →
        byteCount source.text.toList ≤ Position.greatest →
          position.column = column ∧ position.column ≤ byteCount raw) := by
  obtain ⟨fault, -, reported⟩ := fault_of_unreadable failed
  obtain ⟨place, index, raw, -, rfl, told, found, bounded, onLine, rfl⟩ :=
    excerpt_of_unreadable reported
  have member := List.mem_of_getElem? found
  have within : index < (rawLines source.text.toList).length :=
    (List.getElem?_eq_some_iff.mp found).1
  rw [length_rawLines, Nat.lt_succ_iff] at within
  rw [told, Nat.add_sub_cancel]
  rw [told] at onLine
  refine ⟨Nat.succ_pos index, ?_, raw, place.column, found, onLine, rfl, ?_, ?_,
    fun fewLines fewBytes => ?_⟩
  · rw [Nat.add_comm 1]
    exact Nat.succ_le_succ within
  · rw [String.toList_ofList]
    intro newline
    obtain inside | dot := Excerpt.mem_of_mem_around newline
    · exact newline_notMem_rawLines member (mem_of_mem_withoutReturns inside)
    · cases dot
  · rw [String.toList_ofList]
    exact Excerpt.byteCount_around_le _ _
  · have onRaw := bounded fewLines
    have inText := byteCount_le_of_mem_rawLines member
    have same : place.clamped.column = place.column :=
      Nat.min_eq_left (Nat.le_trans onRaw (Nat.le_trans inText fewBytes))
    rw [same]
    exact ⟨rfl, onRaw⟩

/-- A bracket on the second line, after a line that ends in a carriage return. -/
theorem faults_quote_their_line_second :
    let source : Source := ⟨"p", "[null,\r\n ]\r"⟩
    source.decode = .error (.unreadable "p" ⟨2, 2⟩ .trailingComma " ]") ∧
      source.line? 2 = some " ]" ∧ (rawLines source.text.toList)[1]? = some [' ', ']', '\r'] ∧
      byteCount " ]".toList ≤ 92 := by
  intro source
  have stopped : Json.read source.text.toList = .error ⟨.trailingComma, [']', '\r'], 1⟩ := by cbv
  have failed : source.decode = .error (.unreadable "p" ⟨2, 2⟩ .trailingComma " ]") :=
    @decode_of_place source _ ⟨2, 2⟩ [' ', ']'] stopped (by decide) (by decide)
  obtain ⟨_, _, raw, _, found, quoted, _, _, short, _⟩ :=
    faults_quote_their_line source "p" ⟨2, 2⟩ .trailingComma " ]" failed
  have line : (rawLines source.text.toList)[1]? = some [' ', ']', '\r'] := by decide
  cases line.symm.trans found
  exact ⟨failed, quoted, line, short⟩

end JsonForms.Source
