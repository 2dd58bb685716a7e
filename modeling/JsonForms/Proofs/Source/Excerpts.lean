import JsonForms.Source.Excerpt

/-!
# The size of excerpts

A character has four bytes at most, so widening the window around a place to
whole characters adds three bytes at most on either side. This bounds every
excerpt, however long its line is.
-/

namespace JsonForms.Excerpt

open Text

/-- What is skipped is a run from the front that fits, and the next character, if
there is one, would not fit. -/
theorem skipFitting_splits (room skipped : Nat) (line : List Char) :
    ∃ front, line = front ++ (skipFitting room skipped line).2 ∧
      (skipFitting room skipped line).1 = skipped + byteCount front ∧ byteCount front ≤ room ∧
      ((skipFitting room skipped line).2 = [] ∨ room < byteCount front + 4) := by
  induction line generalizing room skipped with
  | nil => exact ⟨[], rfl, rfl, Nat.zero_le _, .inl rfl⟩
  | cons character following inductionHypothesis =>
      rw [skipFitting]
      split
      next fits =>
        obtain ⟨front, split, size, bounded, full⟩ :=
          inductionHypothesis (room - character.utf8Size) (skipped + character.utf8Size)
        refine ⟨character :: front, congrArg (character :: ·) split, ?_, ?_, full.imp_right ?_⟩
        · rw [size, byteCount_cons, Nat.add_assoc]
        · rw [byteCount_cons]
          omega
        · rw [byteCount_cons]
          omega
      next large =>
        have size := character.utf8Size_le_four
        exact ⟨[], rfl, rfl, Nat.zero_le _, .inr (by rw [byteCount_nil]; omega)⟩

/-- What covers some bytes stands at the front. -/
theorem takeCovering_isPrefix (count : Nat) (characters : List Char) :
    takeCovering count characters <+: characters := by
  induction characters generalizing count with
  | nil => cases count <;> exact List.nil_prefix
  | cons character following inductionHypothesis =>
      cases count with
      | zero => exact List.nil_prefix
      | succ count => exact (List.prefix_cons_inj character).mpr (inductionHypothesis _)

/-- What covers some bytes has three bytes more at most. -/
theorem byteCount_takeCovering_le (count : Nat) (characters : List Char) :
    byteCount (takeCovering count characters) ≤ count + 3 := by
  induction characters generalizing count with
  | nil => cases count <;> exact Nat.zero_le _
  | cons character following inductionHypothesis =>
      cases count with
      | zero => exact Nat.zero_le _
      | succ count =>
          have size := character.utf8Size_le_four
          rw [takeCovering, byteCount_cons]
          obtain within | beyond := Nat.lt_or_ge character.utf8Size (count + 1)
          · have later := inductionHypothesis (count + 1 - character.utf8Size)
            omega
          · rw [Nat.sub_eq_zero_of_le beyond, takeCovering, byteCount_nil]
            omega

/-- The window around a place whose start has been widened by three bytes at most. -/
theorem byteCount_window_le {centre size start : Nat} {following : List Char}
    (full : following = [] ∨ centre - radius < start + 4) :
    byteCount (takeCovering (min (centre + radius) size - start) following) ≤ 86 := by
  obtain rfl | full := full
  · cases min (centre + radius) size - start <;> exact Nat.zero_le _
  · have covered := byteCount_takeCovering_le (min (centre + radius) size - start) following
    simp only [radius] at *
    omega

/-- An excerpt has forty bytes on either side, three more each for whole
characters, and two marks of three bytes, at most. -/
theorem byteCount_around_le (line : List Char) (column : Nat) :
    byteCount (around line column) ≤ 92 := by
  have mark : ∀ (condition : Prop) [Decidable condition],
      byteCount (if condition then omission else []) ≤ 3 := by
    intro condition _
    split <;> decide
  obtain ⟨front, _, skipped, _, full⟩ :=
    skipFitting_splits (min (column - 1) (byteCount line) - radius) 0 line
  rw [← Nat.zero_add (byteCount front), ← skipped] at full
  have window := @byteCount_window_le (min (column - 1) (byteCount line)) (byteCount line) _ _ full
  simp only [around, byteCount_append]
  refine Nat.le_trans (Nat.add_le_add (Nat.add_le_add (mark _) window) (mark _)) ?_
  decide

/-- An excerpt shows characters of its line and dots. -/
theorem mem_of_mem_around {line : List Char} {column : Nat} {character : Char}
    (member : character ∈ around line column) : character ∈ line ∨ character = '.' := by
  have dots : ∀ (condition : Prop) [Decidable condition],
      character ∈ (if condition then omission else []) → character = '.' := by
    intro condition _ member
    split at member
    · simpa [omission] using member
    · cases member
  obtain ⟨front, split, _⟩ :=
    skipFitting_splits (min (column - 1) (byteCount line) - radius) 0 line
  simp only [around, List.mem_append] at member
  obtain (member | member) | member := member
  · exact .inr (dots _ member)
  · rw [split]
    exact .inl (List.mem_append_right _ ((takeCovering_isPrefix _ _).subset member))
  · exact .inr (dots _ member)

end JsonForms.Excerpt
