import JsonForms.Source.Basic
import JsonForms.Source.Position
import JsonForms.Text.Bytes

/-!
# Lines and positions

The position of a place is found by going through a text, and its line is looked
up by cutting the text at newlines. Both count lines alike: the place after any
number of bytes lies on a line that exists, at its end at the latest.
-/

namespace JsonForms

open Text

namespace Source

/-- The lines of a text with the carriage returns at their ends. -/
def rawLines (characters : List Char) : List (List Char) := characters.splitOn '\n'

/-- Lines are those of the text without the carriage returns at their ends. -/
theorem lines_eq_map (characters : List Char) :
    lines characters = (rawLines characters).map withoutReturns := rfl

/-- A newline at the front ends an empty line. -/
theorem rawLines_newline (following : List Char) :
    rawLines ('\n' :: following) = [] :: rawLines following := by
  rw [rawLines, List.splitOn_cons_eq_if_modifyHead, if_pos (beq_self_eq_true '\n'), rawLines]

/-- A character that is no newline stands at the front of the first line. -/
theorem rawLines_cons {character : Char} (noNewline : character ≠ '\n') (following : List Char) :
    ∃ first others, rawLines following = first :: others ∧
      rawLines (character :: following) = (character :: first) :: others := by
  obtain ⟨first, others, split⟩ := List.exists_cons_of_ne_nil (List.splitOn_ne_nil '\n' following)
  refine ⟨first, others, split, ?_⟩
  rw [rawLines, List.splitOn_cons_eq_if_modifyHead, if_neg (by simpa using noNewline), split,
    List.modifyHead_cons]

/-- A text is a line without a newline, or one that a newline ends with a text behind it. -/
theorem line_induction {motive : List Char → Prop}
    (last : ∀ line, '\n' ∉ line → motive line)
    (ended : ∀ line following, '\n' ∉ line → motive following → motive (line ++ '\n' :: following))
    (characters : List Char) : motive characters := by
  -- The line that has been read so far stands in front of what is still to be read.
  suffices read : ∀ front, '\n' ∉ front → motive (front ++ characters) from
    read [] List.not_mem_nil
  induction characters with
  | nil =>
      intro front noNewline
      rw [List.append_nil]
      exact last front noNewline
  | cons character following inductionHypothesis =>
      intro front noNewline
      by_cases newline : character = '\n'
      · subst newline
        exact ended front following noNewline (inductionHypothesis [] List.not_mem_nil)
      · rw [List.append_cons]
        refine inductionHypothesis (front ++ [character]) ?_
        simpa [noNewline] using Ne.symm newline

/-- A text without a newline is one line. -/
theorem rawLines_of_notMem {line : List Char} (noNewline : '\n' ∉ line) : rawLines line = [line] :=
  List.splitOn_eq_singleton noNewline

/-- The first newline ends the first line. -/
theorem rawLines_append_newline {line : List Char} (noNewline : '\n' ∉ line)
    (following : List Char) : rawLines (line ++ '\n' :: following) = line :: rawLines following :=
  List.splitOn_append_cons_self_of_not_mem noNewline following

/-- There is one line more than there are newlines. -/
theorem length_rawLines (characters : List Char) :
    (rawLines characters).length = characters.count '\n' + 1 := by
  induction characters using line_induction with
  | last line noNewline =>
      rw [rawLines_of_notMem noNewline, List.count_eq_zero.mpr noNewline]
      rfl
  | ended line following noNewline inductionHypothesis =>
      rw [rawLines_append_newline noNewline, List.length_cons, inductionHypothesis,
        List.count_append, List.count_eq_zero.mpr noNewline, List.count_cons_self, Nat.zero_add]

/-- No line holds a newline. -/
theorem newline_notMem_rawLines {characters line : List Char}
    (member : line ∈ rawLines characters) : '\n' ∉ line := by
  induction characters using line_induction with
  | last only noNewline =>
      rw [rawLines_of_notMem noNewline] at member
      rwa [List.mem_singleton.mp member]
  | ended first following noNewline inductionHypothesis =>
      rw [rawLines_append_newline noNewline] at member
      obtain rfl | later := List.mem_cons.mp member
      · exact noNewline
      · exact inductionHypothesis later

/-- No line has more bytes than the text. -/
theorem byteCount_le_of_mem_rawLines {characters line : List Char}
    (member : line ∈ rawLines characters) : byteCount line ≤ byteCount characters := by
  induction characters using line_induction with
  | last only noNewline =>
      rw [rawLines_of_notMem noNewline] at member
      obtain rfl := List.mem_singleton.mp member
      exact Nat.le_refl _
  | ended first following noNewline inductionHypothesis =>
      rw [rawLines_append_newline noNewline] at member
      rw [byteCount_append, byteCount_cons]
      obtain rfl | later := List.mem_cons.mp member
      · exact Nat.le_add_right _ _
      · have shorter := inductionHypothesis later
        omega

/-- Dropping carriage returns adds no character. -/
theorem mem_of_mem_withoutReturns {line : List Char} {character : Char}
    (member : character ∈ withoutReturns line) : character ∈ line := by
  rw [withoutReturns, List.mem_reverse] at member
  exact List.mem_reverse.mp ((List.dropWhile_sublist _).subset member)

/-- A line is one of the text without the carriage returns at its end. -/
theorem lineOf_of_rawLines {characters line : List Char} {index : Nat}
    (found : (rawLines characters)[index]? = some line) :
    lineOf (index + 1) characters = some (withoutReturns line) := by
  rw [lineOf, lines_eq_map, List.getElem?_map, found]
  rfl

end Source

namespace Position

/-- Going on by some bytes leads to a line further down that exists, at its end at
the latest. -/
theorem advance_within (position : Position) (count : Nat) (characters : List Char) :
    ∃ index line, (position.advance count characters).line = position.line + index ∧
      (Source.rawLines characters)[index]? = some line ∧
      (position.advance count characters).column ≤
        (if index = 0 then position.column else 0) + byteCount line := by
  induction characters generalizing position count with
  | nil => exact ⟨0, [], rfl, rfl, Nat.le_refl _⟩
  | cons character following inductionHypothesis =>
      rw [advance]
      by_cases newline : character = '\n'
      · subst newline
        rw [Source.rawLines_newline]
        split
        next within =>
          -- A newline is one byte, so no byte of it is skipped.
          obtain rfl : count = 0 := Nat.lt_one_iff.mp within
          exact ⟨0, [], rfl, rfl, Nat.le_refl _⟩
        next =>
          obtain ⟨index, line, below, found, bounded⟩ :=
            inductionHypothesis (position.past '\n') (count - '\n'.utf8Size)
          refine ⟨index + 1, line, ?_, found, ?_⟩
          · rw [below, past, if_pos rfl, Nat.add_assoc, Nat.add_comm 1]
          · rw [past, if_pos rfl, ite_self] at bounded
            rwa [past, if_pos rfl, if_neg (Nat.succ_ne_zero _)]
      · obtain ⟨first, others, split, extended⟩ := Source.rawLines_cons newline following
        rw [extended]
        split
        next within =>
          refine ⟨0, character :: first, rfl, rfl, ?_⟩
          rw [if_pos rfl, byteCount_cons]
          exact Nat.add_le_add_left (by omega) _
        next =>
          obtain ⟨index, line, below, found, bounded⟩ :=
            inductionHypothesis (position.past character) (count - character.utf8Size)
          rw [past, if_neg newline] at below bounded ⊢
          cases index with
          | zero =>
              rw [split] at found
              cases found
              refine ⟨0, character :: first, below, rfl, ?_⟩
              rw [if_pos rfl] at bounded ⊢
              rwa [byteCount_cons, ← Nat.add_assoc]
          | succ index =>
              rw [split] at found
              exact ⟨index + 1, line, below, found, bounded⟩

end Position

end JsonForms
