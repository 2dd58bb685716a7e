import JsonForms.Proofs.Source.Excerpts
import Mathlib.Order.Bounds.Basic

/-!
# The window of an excerpt

`Excerpt.around` goes over a line once, by whole characters. The window it shows is told
here without any way of going: from the last boundary of characters that is forty bytes or
more before the place to the first one that is as far behind it. `Excerpt.byOffsets` is the
same excerpt by offsets alone, stepping byte by byte to a boundary and cutting there. An
offset of it can leave its range and a cut can fall inside a character; neither happens.
-/

namespace JsonForms.Excerpt

open Text

/-! ## Boundaries -/

/-- An offset in bytes that no character of the line stands across. -/
def Boundary (line : List Char) (offset : Nat) : Prop :=
  ∃ front back, line = front ++ back ∧ byteCount front = offset

/-- A line begins at a boundary. -/
theorem boundary_zero (line : List Char) : Boundary line 0 := ⟨[], line, rfl, rfl⟩

/-- Every character has a byte. -/
theorem eq_nil_of_byteCount {characters : List Char} (empty : byteCount characters = 0) :
    characters = [] := by
  cases characters with
  | nil => rfl
  | cons character following =>
      have size := character.utf8Size_pos
      rw [byteCount_cons] at empty
      omega

/-- Of two boundaries the later one lies in what is behind the earlier one. -/
theorem Boundary.split_after {line front back : List Char} {offset : Nat}
    (boundary : Boundary line offset) (split : line = front ++ back)
    (later : byteCount front ≤ offset) :
    ∃ middle rest, back = middle ++ rest ∧ offset = byteCount front + byteCount middle := by
  obtain ⟨upTo, rest, other, rfl⟩ := boundary
  obtain ⟨middle, rfl, rfl⟩ | ⟨middle, rfl, rfl⟩ :=
    List.append_eq_append_iff.mp (split.symm.trans other)
  · exact ⟨middle, rest, rfl, byteCount_append front middle⟩
  · rw [byteCount_append] at later
    obtain rfl : middle = [] := eq_nil_of_byteCount (by omega)
    exact ⟨[], back, rfl, by simp⟩

/-- Skipping stops at the last boundary that is not too far. -/
theorem le_skipFitting (room skipped : Nat) (front back : List Char)
    (fits : byteCount front ≤ room) :
    skipped + byteCount front ≤ (skipFitting room skipped (front ++ back)).1 := by
  induction front generalizing room skipped with
  | nil =>
      obtain ⟨_, _, size, _⟩ := skipFitting_splits room skipped back
      rw [List.nil_append, size, byteCount_nil]
      omega
  | cons character front inductionHypothesis =>
      rw [byteCount_cons] at fits
      rw [List.cons_append, skipFitting, if_pos (by omega), byteCount_cons, ← Nat.add_assoc]
      exact inductionHypothesis _ _ (by omega)

/-- What covers some bytes has that many, unless there are fewer. -/
theorem le_byteCount_takeCovering {count : Nat} {characters : List Char}
    (enough : count ≤ byteCount characters) :
    count ≤ byteCount (takeCovering count characters) := by
  induction characters generalizing count with
  | nil => exact Nat.le_trans enough (Nat.zero_le _)
  | cons character following inductionHypothesis =>
      cases count with
      | zero => exact Nat.zero_le _
      | succ count =>
          rw [byteCount_cons] at enough
          have rest := @inductionHypothesis (count + 1 - character.utf8Size) (by omega)
          rw [takeCovering, byteCount_cons]
          omega

/-- Whatever else from the front has some bytes is as long as what covers them. -/
theorem byteCount_takeCovering_le_of_split {count : Nat} {front : List Char} (back : List Char)
    (enough : count ≤ byteCount front) :
    byteCount (takeCovering count (front ++ back)) ≤ byteCount front := by
  induction front generalizing count with
  | nil =>
      obtain rfl : count = 0 := Nat.le_zero.mp enough
      cases back <;> exact Nat.le_refl _
  | cons character front inductionHypothesis =>
      cases count with
      | zero => exact Nat.zero_le _
      | succ count =>
          rw [byteCount_cons] at enough
          have rest := @inductionHypothesis (count + 1 - character.utf8Size) (by omega)
          rw [List.cons_append, takeCovering, byteCount_cons, byteCount_cons]
          omega

/-- What is skipped reaches to the last boundary that is not too far. -/
theorem skipFitting_isGreatest {room : Nat} {line : List Char} (inside : room ≤ byteCount line) :
    ∃ before following, skipFitting room 0 line = (byteCount before, following) ∧
      line = before ++ following ∧ room ≤ byteCount before + 3 ∧
      IsGreatest {offset | Boundary line offset ∧ offset ≤ room} (byteCount before) := by
  obtain ⟨before, split, skipped, fits, full⟩ := skipFitting_splits room 0 line
  rw [Nat.zero_add] at skipped
  refine ⟨before, (skipFitting room 0 line).2, Prod.ext skipped rfl, split, ?_,
    ⟨⟨before, _, split, rfl⟩, fits⟩, ?_⟩
  · obtain none | full := full
    · rw [none, List.append_nil] at split
      rw [split] at inside
      omega
    · omega
  · rintro offset ⟨⟨front, back, rfl, rfl⟩, near⟩
    have reached := le_skipFitting room 0 front back near
    rwa [skipped, Nat.zero_add] at reached

/-- What covers the bytes up to an offset reaches to the first boundary that is as far. -/
theorem takeCovering_isLeast {line before following : List Char} {offset : Nat}
    (split : line = before ++ following) (behind : byteCount before ≤ offset)
    (inside : offset ≤ byteCount line) :
    ∃ after, following = takeCovering (offset - byteCount before) following ++ after ∧
      byteCount before + byteCount (takeCovering (offset - byteCount before) following) ≤
        offset + 3 ∧
      IsLeast {other | Boundary line other ∧ offset ≤ other}
        (byteCount before + byteCount (takeCovering (offset - byteCount before) following)) := by
  have size : byteCount line = byteCount before + byteCount following := by
    rw [split, byteCount_append]
  have covered : offset - byteCount before ≤
      byteCount (takeCovering (offset - byteCount before) following) :=
    le_byteCount_takeCovering (by omega)
  have narrow := byteCount_takeCovering_le (offset - byteCount before) following
  obtain ⟨after, cut⟩ := takeCovering_isPrefix (offset - byteCount before) following
  refine ⟨after, cut.symm, by omega, ⟨⟨before ++ takeCovering _ following, after, ?_,
    byteCount_append _ _⟩, by omega⟩, ?_⟩
  · rw [List.append_assoc, cut, split]
  · rintro other ⟨boundary, far⟩
    obtain ⟨middle, rest, rfl, rfl⟩ := boundary.split_after split (by omega)
    exact Nat.add_le_add_left (byteCount_takeCovering_le_of_split rest (by omega)) _

/-! ## The window -/

/-- The byte that an excerpt is taken around, counted from zero. -/
def centre (line : List Char) (column : Nat) : Nat := min (max column 1 - 1) (byteCount line)

/-- A line is cut before and behind a window, from the last boundary that is forty bytes
before the centre or more to the first one that is forty bytes behind it or more. -/
structure Window (line : List Char) (column : Nat) (before window after : List Char) : Prop where
  split : line = before ++ window ++ after
  start : IsGreatest {offset | Boundary line offset ∧ offset ≤ centre line column - 40}
    (byteCount before)
  stop : IsLeast {offset | Boundary line offset ∧
      min (centre line column + 40) (byteCount line) ≤ offset}
    (byteCount before + byteCount window)

namespace Window

variable {line before window after : List Char} {column : Nat}

/-- The bytes of a line are those before its window, in it and behind it. -/
theorem size (holds : Window line column before window after) :
    byteCount line = byteCount before + byteCount window + byteCount after := by
  rw [holds.split, byteCount_append, byteCount_append]

/-- The centre lies in the window. -/
theorem centre_within (holds : Window line column before window after) :
    byteCount before ≤ centre line column ∧
      centre line column ≤ byteCount before + byteCount window := by
  have start := holds.start.1.2
  have stop := holds.stop.1.2
  have inside : centre line column ≤ byteCount line := Nat.min_le_right _ _
  omega

/-- Nothing is cut off where forty bytes or fewer are on either side. -/
theorem whole (holds : Window line column before window after)
    (near : centre line column ≤ 40) (short : byteCount line ≤ centre line column + 40) :
    before = [] ∧ window = line ∧ after = [] := by
  have start := holds.start.1.2
  have stop := holds.stop.1.2
  have size := holds.size
  obtain rfl : before = [] := eq_nil_of_byteCount (by omega)
  obtain rfl : after = [] := eq_nil_of_byteCount (by omega)
  exact ⟨rfl, by simpa using holds.split.symm, rfl⟩

end Window

/-- A window with a mark on each side where something is cut off. -/
def marked (before window after : List Char) : List Char :=
  (if 0 < byteCount before then omission else []) ++ window ++
    (if byteCount before + byteCount window < byteCount (before ++ window ++ after) then omission
      else [])

/-- An excerpt shows a window that is three bytes wider at most on either side, and marks
what is cut off. -/
theorem around_eq_marked (line : List Char) (column : Nat) :
    ∃ before window after, Window line column before window after ∧
      around line column = marked before window after ∧
      centre line column - 40 ≤ byteCount before + 3 ∧
      byteCount before + byteCount window ≤ min (centre line column + 40) (byteCount line) + 3 := by
  have inside : centre line column ≤ byteCount line := Nat.min_le_right _ _
  have room : centre line column - 40 ≤ byteCount line := by omega
  obtain ⟨before, following, skipped, split, wide, start⟩ := skipFitting_isGreatest room
  have near := start.1.2
  have behind : byteCount before ≤ min (centre line column + 40) (byteCount line) := by omega
  obtain ⟨after, cut, narrow, stop⟩ := takeCovering_isLeast split behind (Nat.min_le_right _ _)
  have whole : line = before ++ takeCovering (min (centre line column + 40) (byteCount line) -
      byteCount before) following ++ after := by
    rw [List.append_assoc, ← cut, split]
  refine ⟨before, _, after, ⟨whole, start, stop⟩, ?_, wide, narrow⟩
  have same : min (column - 1) (byteCount line) = centre line column := by
    rw [centre]
    omega
  rw [marked, ← whole, around, same]
  simp only [radius, skipped]

/-! ## Offsets -/

/-- A line cut at an offset, unless a character stands across it or the line ends before it. -/
def cut? : Nat → List Char → Option (List Char × List Char)
  | 0, line => some ([], line)
  | _ + 1, [] => none
  | offset + 1, character :: following =>
      if character.utf8Size ≤ offset + 1 then
        (cut? (offset + 1 - character.utf8Size) following).map fun (front, back) =>
          (character :: front, back)
      else none

/-- The characters between two offsets, if a line can be cut at both of them. -/
def slice? (line : List Char) (start stop : Nat) : Option (List Char) :=
  if start ≤ stop then do
    let (front, _) ← cut? stop line
    let (_, window) ← cut? start front
    return window
  else none

/-- The greatest offset there is. -/
def greatestOffset : Nat := 0xFFFFFFFFFFFFFFFF

/-- Goes down byte by byte to a boundary. There is no offset below zero. -/
def goDown (line : List Char) : Nat → Option Nat
  | 0 => if (cut? 0 line).isSome then some 0 else none
  | offset + 1 => if (cut? (offset + 1) line).isSome then some (offset + 1) else goDown line offset

/-- Goes up byte by byte to a boundary, as long as there is a greater offset. -/
def goUp (line : List Char) (offset : Nat) : Option Nat :=
  if (cut? offset line).isSome then some offset
  else if offset < greatestOffset then goUp line (offset + 1)
  else none
termination_by greatestOffset - offset

/-- The excerpt of a line by offsets, each of which may leave its range, and by a cut that
may fall inside a character. The sum is the greatest offset where it would exceed it. -/
def byOffsets (line : List Char) (column : Nat) : Option (List Char) := do
  let size := byteCount line
  let place := min (column - 1) size
  let start ← goDown line (place - radius)
  let stop ← goUp line (min (min (place + radius) greatestOffset) size)
  let window ← slice? line start stop
  return (if 0 < start then omission else []) ++ window ++
    (if stop < size then omission else [])

/-- A line is cut in two at an offset exactly when the front has so many bytes. -/
theorem cut?_eq_some_iff {line front back : List Char} {offset : Nat} :
    cut? offset line = some (front, back) ↔ line = front ++ back ∧ byteCount front = offset := by
  fun_induction cut? offset line generalizing front with
  | case1 line =>
      rw [Option.some.injEq, Prod.mk.injEq]
      constructor
      · rintro ⟨rfl, rfl⟩
        exact ⟨rfl, rfl⟩
      · rintro ⟨rfl, empty⟩
        obtain rfl := eq_nil_of_byteCount empty
        exact ⟨rfl, rfl⟩
  | case2 offset =>
      refine ⟨nofun, ?_⟩
      rintro ⟨split, size⟩
      rw [(List.append_eq_nil_iff.mp split.symm).1] at size
      cases size
  | case3 offset character following fits inductionHypothesis =>
      rw [Option.map_eq_some_iff]
      constructor
      · rintro ⟨⟨inner, rest⟩, found, same⟩
        obtain ⟨rfl, rfl⟩ := Prod.mk.inj same
        obtain ⟨rfl, size⟩ := inductionHypothesis.mp found
        exact ⟨rfl, by rw [byteCount_cons, size]; omega⟩
      · rintro ⟨split, size⟩
        cases front with
        | nil => cases size
        | cons first inner =>
            obtain ⟨rfl, rfl⟩ := List.cons.inj split
            rw [byteCount_cons] at size
            exact ⟨(inner, back), inductionHypothesis.mpr ⟨rfl, by omega⟩, rfl⟩
  | case4 offset character following across =>
      refine ⟨nofun, ?_⟩
      rintro ⟨split, size⟩
      cases front with
      | nil => cases size
      | cons first inner =>
          obtain ⟨rfl, rfl⟩ := List.cons.inj split
          rw [byteCount_cons] at size
          omega

/-- A line can be cut exactly at its boundaries. -/
theorem isSome_cut?_iff {line : List Char} {offset : Nat} :
    (cut? offset line).isSome ↔ Boundary line offset := by
  rw [Option.isSome_iff_exists, Prod.exists]
  simp only [cut?_eq_some_iff]
  rfl

/-- A line that is split in three has its middle part between the two offsets. -/
theorem slice?_of_split (before window after : List Char) :
    slice? (before ++ window ++ after) (byteCount before)
      (byteCount before + byteCount window) = some window := by
  have upTo : cut? (byteCount before + byteCount window) (before ++ window ++ after) =
      some (before ++ window, after) :=
    cut?_eq_some_iff.mpr ⟨rfl, byteCount_append _ _⟩
  have behind : cut? (byteCount before) (before ++ window) = some (before, window) :=
    cut?_eq_some_iff.mpr ⟨rfl, rfl⟩
  rw [slice?, if_pos (Nat.le_add_right _ _)]
  simp only [upTo, behind, Option.bind_eq_bind, Option.bind_some]
  rfl

/-- Going down never goes below zero, since a line begins at a boundary. -/
theorem goDown_of_isGreatest {line : List Char} {offset start : Nat}
    (greatest : IsGreatest {other | Boundary line other ∧ other ≤ offset} start) :
    goDown line offset = some start := by
  induction offset with
  | zero =>
      rw [goDown, if_pos (isSome_cut?_iff.mpr (boundary_zero line)), Nat.le_zero.mp greatest.1.2]
  | succ offset inductionHypothesis =>
      rw [goDown]
      split
      next here =>
        have reached := greatest.2 ⟨isSome_cut?_iff.mp here, Nat.le_refl _⟩
        rw [Nat.le_antisymm greatest.1.2 reached]
      next across =>
        rw [isSome_cut?_iff] at across
        refine inductionHypothesis ⟨⟨greatest.1.1, ?_⟩, fun other holds =>
          greatest.2 ⟨holds.1, Nat.le_succ_of_le holds.2⟩⟩
        refine Nat.le_of_lt_succ (Nat.lt_of_le_of_ne greatest.1.2 ?_)
        rintro rfl
        exact across greatest.1.1

/-- Going up ends, since a line ends at a boundary. -/
theorem goUp_of_isLeast {line : List Char} {offset stop : Nat}
    (least : IsLeast {other | Boundary line other ∧ offset ≤ other} stop)
    (inside : stop ≤ greatestOffset) : goUp line offset = some stop := by
  fun_induction goUp line offset with
  | case1 offset here =>
      have reached := least.2 ⟨isSome_cut?_iff.mp here, Nat.le_refl _⟩
      rw [Nat.le_antisymm reached least.1.2]
  | case2 offset across _ inductionHypothesis =>
      rw [isSome_cut?_iff] at across
      refine inductionHypothesis ⟨⟨least.1.1, ?_⟩, fun other holds =>
        least.2 ⟨holds.1, Nat.le_of_succ_le holds.2⟩⟩
      refine Nat.lt_of_le_of_ne least.1.2 fun same => ?_
      exact across (same ▸ least.1.1)
  | case3 offset across above =>
      rw [isSome_cut?_iff] at across
      have same : offset = stop := Nat.le_antisymm least.1.2 (by omega)
      exact absurd (same ▸ least.1.1) across

/-- No offset leaves its range and no cut falls inside a character, for any line whose size
is an offset. -/
theorem byOffsets_eq_around {line : List Char} (column : Nat)
    (sized : byteCount line ≤ greatestOffset) :
    byOffsets line column = some (around line column) := by
  obtain ⟨before, window, after, holds, shown, _⟩ := around_eq_marked line column
  have place : min (column - 1) (byteCount line) = centre line column := by
    rw [centre]
    omega
  have sum : min (min (centre line column + 40) greatestOffset) (byteCount line) =
      min (centre line column + 40) (byteCount line) := by omega
  have size := holds.size
  have sliced := slice?_of_split before window after
  rw [← holds.split] at sliced
  simp only [byOffsets, radius, place, sum, goDown_of_isGreatest holds.start,
    goUp_of_isLeast holds.stop (by omega), sliced, Option.bind_eq_bind, Option.bind_some, shown,
    marked, ← holds.split]
  rfl

/-- For every line and column the excerpt is the window around the place, with a mark on each
side where something is cut off, and the offsets lead to the same one. The place lies in the
window, which is at most three bytes wider than forty on either side, and the excerpt has 92
bytes at most. A line with forty bytes or fewer on either side is shown as it is. -/
theorem excerpts_keep_their_window (line : List Char) (column : Nat) :
    (byteCount line ≤ 0xFFFFFFFFFFFFFFFF →
      byOffsets line column = some (around line column)) ∧
    (∃ before window after, Window line column before window after ∧
      around line column = (if 0 < byteCount before then ['.', '.', '.'] else []) ++ window ++
        (if byteCount before + byteCount window < byteCount line then ['.', '.', '.'] else []) ∧
      byteCount before ≤ centre line column ∧
      centre line column ≤ byteCount before + byteCount window ∧
      centre line column - 40 ≤ byteCount before + 3 ∧
      byteCount before + byteCount window ≤
        min (centre line column + 40) (byteCount line) + 3) ∧
    byteCount (around line column) ≤ 92 ∧
    (centre line column ≤ 40 → byteCount line ≤ centre line column + 40 →
      around line column = line) := by
  obtain ⟨before, window, after, holds, shown, wide, narrow⟩ := around_eq_marked line column
  obtain ⟨behind, ahead⟩ := holds.centre_within
  refine ⟨byOffsets_eq_around column, ⟨before, window, after, holds, ?_, behind, ahead, wide,
    narrow⟩, byteCount_around_le line column, fun near short => ?_⟩
  · rw [shown, marked, ← holds.split]
    rfl
  · obtain ⟨rfl, rfl, rfl⟩ := holds.whole near short
    rw [shown]
    simp [marked]

/-- Both ends of the window are moved off a character of two bytes, and past the end of a line
the window is at its end. -/
example : around (List.replicate 100 'é') 102 = omission ++ List.replicate 41 'é' ++ omission ∧
    around ['a', 'b'] 7 = ['a', 'b'] := by decide

end JsonForms.Excerpt
