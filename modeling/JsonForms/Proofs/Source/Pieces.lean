import JsonForms.Proofs.Source.Lines
import Mathlib.Data.List.DropRight

/-!
# What the lines of a text keep of it

A piece of a text reaches from one newline to the next. A line is a piece from which only the
carriage returns at its end are missing, and its number is one more than the newlines before it.
Where a carriage return stands only before a newline, a text is its lines and what ends them,
put one after another.
-/

namespace JsonForms.Source

/-! ## Pieces -/

/-- A text is cut before and behind a piece. Either cut is at a newline, which is no part of the
piece, or at an end of the text. -/
structure Piece (characters before piece behind : List Char) : Prop where
  split : characters = before ++ piece ++ behind
  opened : before = [] ∨ ['\n'] <:+ before
  whole : '\n' ∉ piece
  closed : behind = [] ∨ ['\n'] <+: behind

namespace Piece

variable {characters before piece behind : List Char}

/-- A piece stays one when an ended line is put in front of the text. -/
theorem below (line : List Char) (cut : Piece characters before piece behind) :
    Piece (line ++ '\n' :: characters) (line ++ '\n' :: before) piece behind where
  split := by
    rw [cut.split]
    simp only [List.append_assoc, List.cons_append]
  opened := by
    obtain rfl | ends := cut.opened
    · exact .inr (List.suffix_append _ _)
    · exact .inr (ends.trans ((List.suffix_cons _ _).trans (List.suffix_append _ _)))
  whole := cut.whole
  closed := cut.closed

/-- A piece is found by counting the newlines before it. -/
theorem found (cut : Piece characters before piece behind) :
    (rawLines characters)[before.count '\n']? = some piece := by
  have first : (rawLines (piece ++ behind))[0]? = some piece := by
    obtain rfl | ⟨later, rfl⟩ := cut.closed
    · rw [List.append_nil, rawLines_of_notMem cut.whole]
      rfl
    · rw [List.singleton_append, rawLines_append_newline cut.whole]
      rfl
  rw [cut.split, List.append_assoc]
  obtain rfl | ⟨earlier, rfl⟩ := cut.opened
  · exact first
  · have parts : rawLines (earlier ++ ['\n'] ++ (piece ++ behind)) =
        rawLines earlier ++ rawLines (piece ++ behind) := by
      rw [List.append_assoc, List.singleton_append]
      exact List.splitOn_append_cons_self _ _
    have counted : (earlier ++ ['\n']).count '\n' = (rawLines earlier).length := by
      rw [length_rawLines, List.count_append, List.count_singleton_self]
    rw [parts, counted, List.getElem?_append_right (Nat.le_refl _), Nat.sub_self, first]

end Piece

/-- What splitting finds is a piece, with the newlines counted that stand before it. -/
theorem piece_of_rawLines {characters piece : List Char} {index : Nat}
    (found : (rawLines characters)[index]? = some piece) :
    ∃ before behind, Piece characters before piece behind ∧ before.count '\n' = index := by
  induction characters using line_induction generalizing index with
  | last line noNewline =>
      rw [rawLines_of_notMem noNewline, List.getElem?_singleton] at found
      split at found
      next first =>
        obtain rfl := Option.some.inj found
        exact ⟨[], [], ⟨(List.append_nil _).symm, .inl rfl, noNewline, .inl rfl⟩, first.symm⟩
      next => cases found
  | ended line following noNewline inductionHypothesis =>
      rw [rawLines_append_newline noNewline] at found
      cases index with
      | zero =>
          obtain rfl := Option.some.inj found
          exact ⟨[], '\n' :: following, ⟨rfl, .inl rfl, noNewline, .inr ⟨following, rfl⟩⟩, rfl⟩
      | succ index =>
          obtain ⟨before, behind, cut, rfl⟩ := inductionHypothesis found
          refine ⟨line ++ '\n' :: before, behind, cut.below line, ?_⟩
          rw [List.count_append, List.count_eq_zero.mpr noNewline, List.count_cons_self,
            Nat.zero_add]

/-! ## Carriage returns -/

/-- What is left of a piece is all up to a run of carriage returns, and does not end in one. -/
theorem withoutReturns_eq_iff {piece line : List Char} :
    withoutReturns piece = line ↔
      (∃ returns, piece = line ++ List.replicate returns '\r') ∧ line.getLast? ≠ some '\r' := by
  constructor
  · rintro rfl
    refine ⟨⟨(piece.rtakeWhile (· = '\r')).length, ?_⟩, fun last => ?_⟩
    · have run : piece.rtakeWhile (· = '\r') =
          List.replicate (piece.rtakeWhile (· = '\r')).length '\r' := by
        refine List.eq_replicate_of_mem fun character member => ?_
        simpa using List.mem_rtakeWhile_imp member
      rw [← run]
      exact List.rdropWhile_append_rtakeWhile.symm
    · exact List.rdropWhile_last_not (· = '\r') piece _
        (decide_eq_true (List.getLast_of_getLast?_eq_some last))
  · rintro ⟨⟨returns, rfl⟩, last⟩
    induction returns with
    | zero =>
        rw [List.replicate_zero, List.append_nil]
        refine List.rdropWhile_eq_self_iff.mpr fun filled ends => last ?_
        rw [List.getLast?_eq_getLast_of_ne_nil filled, of_decide_eq_true ends]
    | succ returns inductionHypothesis =>
        rw [List.replicate_succ', ← List.append_assoc]
        exact (List.rdropWhile_concat_pos (· = '\r') _ _ (decide_eq_true rfl)).trans
          inductionHypothesis

/-- A carriage return is dropped only at the end, so another character in front stays. -/
theorem withoutReturns_cons {character : Char} (differs : character ≠ '\r') (piece : List Char) :
    withoutReturns (character :: piece) = character :: withoutReturns piece := by
  obtain ⟨⟨returns, split⟩, last⟩ := withoutReturns_eq_iff.mp (rfl : withoutReturns piece = _)
  refine withoutReturns_eq_iff.mpr ⟨⟨returns, congrArg (character :: ·) split⟩, ?_⟩
  cases kept : withoutReturns piece with
  | nil => simpa using differs
  | cons first others => rwa [List.getLast?_cons_cons, ← kept]

/-! ## Lines -/

/-- A line is a piece without the carriage returns at its end, counted by the newlines before it. -/
theorem lineOf_eq_some_iff {characters line : List Char} {number : Nat} :
    lineOf number characters = some line ↔
      ∃ before returns behind,
        Piece characters before (line ++ List.replicate returns '\r') behind ∧
        number = before.count '\n' + 1 ∧ line.getLast? ≠ some '\r' := by
  constructor
  · intro looked
    cases number with
    | zero => cases looked
    | succ index =>
        rw [lineOf, lines_eq_map, List.getElem?_map, Option.map_eq_some_iff] at looked
        obtain ⟨piece, found, trimmed⟩ := looked
        obtain ⟨⟨returns, rfl⟩, last⟩ := withoutReturns_eq_iff.mp trimmed
        obtain ⟨before, behind, cut, rfl⟩ := piece_of_rawLines found
        exact ⟨before, returns, behind, cut, rfl, last⟩
  · rintro ⟨before, returns, behind, cut, rfl, last⟩
    rw [lineOf_of_rawLines cut.found, withoutReturns_eq_iff.mpr ⟨⟨returns, rfl⟩, last⟩]

/-- Lines are numbered from one to one more than there are newlines. -/
theorem isSome_lineOf_iff {characters : List Char} {number : Nat} :
    (lineOf number characters).isSome ↔ 1 ≤ number ∧ number ≤ characters.count '\n' + 1 := by
  cases number with
  | zero => simp [lineOf]
  | succ index =>
      rw [lineOf, isSome_getElem?, lines_eq_map, List.length_map, length_rawLines]
      omega

/-- A line of a source is one of its characters, as a string. -/
theorem line?_eq_some_iff {source : Source} {number : Nat} {line : String} :
    source.line? number = some line ↔ lineOf number source.text.toList = some line.toList := by
  rw [line?, Option.map_eq_some_iff]
  constructor
  · rintro ⟨characters, looked, rfl⟩
    rwa [String.toList_ofList]
  · exact fun looked => ⟨line.toList, looked, String.ofList_toList⟩

/-! ## Terminators -/

/-- What ends the lines of a text, from the first line on: a newline, together with a carriage
return that stands directly before it. -/
def terminators : List Char → List (List Char)
  | [] => []
  | '\r' :: '\n' :: following => ['\r', '\n'] :: terminators following
  | '\n' :: following => ['\n'] :: terminators following
  | _ :: following => terminators following

/-- Every newline ends a line. -/
theorem length_terminators (characters : List Char) :
    (terminators characters).length = characters.count '\n' := by
  fun_induction terminators characters with
  | case1 => rfl
  | case2 following inductionHypothesis => simp [inductionHypothesis]
  | case3 following inductionHypothesis => simp [inductionHypothesis]
  | case4 character following _ differs inductionHypothesis =>
      rw [inductionHypothesis, List.count_cons_of_ne differs]

/-- A line ends with a newline, or with a carriage return and a newline. -/
theorem eq_of_mem_terminators {characters terminator : List Char}
    (member : terminator ∈ terminators characters) :
    terminator = ['\n'] ∨ terminator = ['\r', '\n'] := by
  fun_induction terminators characters with
  | case1 => cases member
  | case2 following inductionHypothesis =>
      exact (List.mem_cons.mp member).elim .inr inductionHypothesis
  | case3 following inductionHypothesis =>
      exact (List.mem_cons.mp member).elim .inl inductionHypothesis
  | case4 character following _ _ inductionHypothesis => exact inductionHypothesis member

/-- Every carriage return of a text stands directly before a newline. -/
def ReturnsEndLines (characters : List Char) : Prop :=
  ∀ index, characters[index]? = some '\r' → characters[index + 1]? = some '\n'

/-- If all carriage returns end lines, those behind the first character do. -/
theorem ReturnsEndLines.tail {character : Char} {following : List Char}
    (ended : ReturnsEndLines (character :: following)) : ReturnsEndLines following :=
  fun index found => ended (index + 1) found

/-! ## Putting a text together -/

/-- A line of a text and what ends it, lines being counted from zero. -/
def segment (characters : List Char) (index : Nat) : List Char :=
  (lines characters)[index]?.getD [] ++ (terminators characters)[index]?.getD []

/-- The lines of a source from the first to the last, each followed by what ends it. -/
def rejoined (source : Source) : List Char :=
  (List.range (source.text.toList.count '\n' + 1)).flatMap fun index =>
    ((source.line? (index + 1)).getD "").toList ++
      (terminators source.text.toList)[index]?.getD []

/-- A newline at the front ends an empty line. -/
theorem lines_newline (following : List Char) :
    lines ('\n' :: following) = [] :: lines following := by
  rw [lines_eq_map, rawLines_newline, List.map_cons, ← lines_eq_map]
  rfl

/-- A carriage return before a newline is no part of a line. -/
theorem lines_return (following : List Char) :
    lines ('\r' :: '\n' :: following) = [] :: lines following := by
  have noNewline : '\r' ≠ '\n' := by decide
  obtain ⟨first, others, split, extended⟩ := rawLines_cons noNewline ('\n' :: following)
  rw [rawLines_newline] at split
  obtain ⟨rfl, rfl⟩ := List.cons.inj split
  rw [lines_eq_map, extended, List.map_cons, ← lines_eq_map]
  rfl

/-- A character that ends no line stands at the front of the first one. -/
theorem lines_cons {character : Char} (noNewline : character ≠ '\n') (noReturn : character ≠ '\r')
    (following : List Char) :
    ∃ first others, lines following = first :: others ∧
      lines (character :: following) = (character :: first) :: others := by
  obtain ⟨first, others, split, extended⟩ := rawLines_cons noNewline following
  refine ⟨withoutReturns first, others.map withoutReturns, ?_, ?_⟩
  · rw [lines_eq_map, split, List.map_cons]
  · rw [lines_eq_map, extended, List.map_cons, withoutReturns_cons noReturn]

/-- Behind what ends an empty line, all lines have moved up by a number. -/
theorem flatMap_segment_of_terminated {characters following terminator : List Char}
    (cut : lines characters = [] :: lines following)
    (ends : terminators characters = terminator :: terminators following) (count : Nat) :
    (List.range (count + 1)).flatMap (segment characters) =
      terminator ++ (List.range count).flatMap (segment following) := by
  have moved (index : Nat) : segment characters (index + 1) = segment following index := by
    rw [segment, cut, ends]
    rfl
  rw [List.range_succ_eq_map, List.flatMap_cons, List.flatMap_map]
  simp only [moved]
  rw [segment, cut, ends]
  rfl

/-- A character that ends no line is only at the front of the first line. -/
theorem flatMap_segment_of_front {character : Char} {following first : List Char}
    {others : List (List Char)} (cut : lines following = first :: others)
    (extended : lines (character :: following) = (character :: first) :: others)
    (same : terminators (character :: following) = terminators following) (count : Nat) :
    (List.range (count + 1)).flatMap (segment (character :: following)) =
      character :: (List.range (count + 1)).flatMap (segment following) := by
  have front : segment (character :: following) 0 = character :: segment following 0 := by
    rw [segment, segment, cut, extended, same]
    rfl
  have behind (index : Nat) :
      segment (character :: following) (index + 1) = segment following (index + 1) := by
    rw [segment, segment, cut, extended, same]
    rfl
  simp only [List.range_succ_eq_map, List.flatMap_cons, List.flatMap_map, Nat.succ_eq_add_one,
    front, behind, List.cons_append]

/-- A text without a stray carriage return is its lines with what ends them. The induction goes
along the terminators: every other character stands at the front of the first line. -/
theorem flatMap_segment {characters : List Char} (ended : ReturnsEndLines characters) :
    (List.range (characters.count '\n' + 1)).flatMap (segment characters) = characters := by
  fun_induction terminators characters with
  | case1 => rfl
  | case2 following inductionHypothesis =>
      have counted : ('\r' :: '\n' :: following).count '\n' = following.count '\n' + 1 := by simp
      rw [counted, flatMap_segment_of_terminated (lines_return following) (by rw [terminators]),
        inductionHypothesis ended.tail.tail]
      rfl
  | case3 following inductionHypothesis =>
      rw [List.count_cons_self,
        flatMap_segment_of_terminated (lines_newline following) (by rw [terminators]),
        inductionHypothesis ended.tail]
      rfl
  | case4 character following noPair noNewline inductionHypothesis =>
      have noReturn : character ≠ '\r' := by
        rintro rfl
        cases following with
        | nil => cases ended 0 rfl
        | cons next later =>
            obtain rfl := Option.some.inj (ended 0 rfl)
            exact noPair later rfl rfl
      obtain ⟨first, others, cut, extended⟩ := lines_cons noNewline noReturn following
      have same : terminators (character :: following) = terminators following := by
        rw [terminators] <;> assumption
      rw [List.count_cons_of_ne noNewline, flatMap_segment_of_front cut extended same,
        inductionHypothesis ended.tail]

/-- The rejoined lines of a source are the segments of its text, in order. -/
theorem rejoined_eq_flatMap (source : Source) :
    source.rejoined =
      (List.range (source.text.toList.count '\n' + 1)).flatMap (segment source.text.toList) := by
  refine List.flatMap_congr fun index _ => congrArg (· ++ _) ?_
  rw [line?, lineOf]
  cases (lines source.text.toList)[index]? with
  | none => rfl
  | some line => exact String.toList_ofList

/-- Splitting into lines loses nothing but carriage returns at their ends. There is one line more
than there are newlines, and lines are numbered from one. A line is what stands between newlines,
with as many newlines before it as there are lines before, less the carriage returns at its end;
it holds no newline and does not end in a carriage return. Every line but the last is ended by a
newline, alone or with a carriage return before it. Where no carriage return stands anywhere else,
the lines and what ends them are the text again. -/
theorem lines_split_losslessly (source : Source) :
    (∀ number, (source.line? number).isSome ↔
      1 ≤ number ∧ number ≤ source.text.toList.count '\n' + 1) ∧
    (∀ number line, source.line? number = some line →
      '\n' ∉ line.toList ∧ line.toList.getLast? ≠ some '\r') ∧
    (∀ number line, source.line? number = some line ↔
      ∃ before returns behind,
        Piece source.text.toList before (line.toList ++ List.replicate returns '\r') behind ∧
        number = before.count '\n' + 1 ∧ line.toList.getLast? ≠ some '\r') ∧
    (terminators source.text.toList).length = source.text.toList.count '\n' ∧
    (∀ terminator ∈ terminators source.text.toList,
      terminator = ['\n'] ∨ terminator = ['\r', '\n']) ∧
    (ReturnsEndLines source.text.toList → source.rejoined = source.text.toList) := by
  refine ⟨fun number => ?_, fun number line looked => ?_, fun number line => ?_,
    length_terminators _, fun terminator => eq_of_mem_terminators, fun ended => ?_⟩
  · rw [line?, Option.isSome_map, isSome_lineOf_iff]
  · obtain ⟨before, returns, behind, cut, _, last⟩ :=
      lineOf_eq_some_iff.mp (line?_eq_some_iff.mp looked)
    exact ⟨fun member => cut.whole (List.mem_append_left _ member), last⟩
  · rw [line?_eq_some_iff, lineOf_eq_some_iff]
  · rw [rejoined_eq_flatMap, flatMap_segment ended]

/-- Lines ended in both ways, one of them empty, and nothing behind the last newline. -/
theorem lines_split_losslessly_mixed :
    Source.line? ⟨"", "a\r\n\nb\r\n"⟩ 1 = some "a" ∧ '\n' ∉ "a".toList ∧
      "a".toList.getLast? ≠ some '\r' ∧ ReturnsEndLines "a\r\n\nb\r\n".toList ∧
      rejoined ⟨"", "a\r\n\nb\r\n"⟩ = "a\r\n\nb\r\n".toList := by
  obtain ⟨_, clean, _, _, _, joined⟩ := lines_split_losslessly ⟨"", "a\r\n\nb\r\n"⟩
  have looked : Source.line? ⟨"", "a\r\n\nb\r\n"⟩ 1 = some "a" := by decide
  have ended : ReturnsEndLines "a\r\n\nb\r\n".toList := by
    rw [show "a\r\n\nb\r\n".toList = ['a', '\r', '\n', '\n', 'b', '\r', '\n'] by decide]
    intro index
    match index with
    | 0 | 1 | 2 | 3 | 4 | 5 | 6 => decide
    | index + 7 => exact nofun
  exact ⟨looked, (clean 1 "a" looked).1, (clean 1 "a" looked).2, ended, joined ended⟩

end JsonForms.Source
