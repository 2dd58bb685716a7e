import JsonForms.Json.Reader.Progress
import JsonForms.Proofs.Grammar.Basic

/-!
# What a reading takes off a text

A reading carries proofs that its rests are shorter. `Json.Reads` forgets them
and keeps the value and the rest, which is all that the grammar speaks of.
-/

namespace JsonForms.Json

open Grammar

/-- A reading succeeds with a value and leaves a rest. -/
def Reads {α : Type} {bound : Nat} (reading : Reading α bound) (value : α)
    (rest : List Char) : Prop :=
  ∃ shorter, reading = .ok ⟨value, rest, shorter⟩

/-- A reading that succeeds reads its value and leaves its rest. -/
theorem reads_ok {α : Type} {bound : Nat} {value : α} {rest : List Char}
    (shorter : rest.length < bound) :
    Reads (.ok ⟨value, rest, shorter⟩ : Reading α bound) value rest :=
  ⟨shorter, rfl⟩

/-- A reading that succeeds reads no other value and leaves no other rest. -/
@[simp]
theorem reads_ok_iff {α : Type} {bound : Nat} {found value : α} {after rest : List Char}
    {shorter : after.length < bound} :
    Reads (.ok ⟨found, after, shorter⟩) value rest ↔ found = value ∧ after = rest := by
  constructor
  · rintro ⟨_, equal⟩
    cases equal
    exact ⟨rfl, rfl⟩
  · rintro ⟨rfl, rfl⟩
    exact ⟨shorter, rfl⟩

/-- A reading that fails reads nothing. -/
@[simp]
theorem not_reads_error {α : Type} {bound : Nat} {fault : Fault} {value : α}
    {rest : List Char} : ¬ Reads (.error fault : Reading α bound) value rest := by
  rintro ⟨_, equal⟩
  cases equal

/-- Changing the value of a reading changes neither its success nor its rest. -/
theorem reads_map_iff {α β : Type} {bound : Nat} {reading : Reading α bound} {change : α → β}
    {value : β} {rest : List Char} :
    Reads (reading.map (Progress.map change)) value rest ↔
      ∃ inner, Reads reading inner rest ∧ change inner = value := by
  cases reading with
  | error fault => simp [Except.map]
  | ok progress =>
      obtain ⟨found, after, shorter⟩ := progress
      simp only [Except.map, reads_ok_iff, Progress.map]
      constructor
      · rintro ⟨rfl, rfl⟩
        exact ⟨_, ⟨rfl, rfl⟩, rfl⟩
      · rintro ⟨_, ⟨rfl, rfl⟩, rfl⟩
        exact ⟨rfl, rfl⟩

/-- A reading is the same reading within a longer text. -/
@[simp]
theorem reads_widen_iff {α : Type} {bound wider : Nat} {within : bound ≤ wider}
    {reading : Reading α bound} {value : α} {rest : List Char} :
    Reads (reading.map (Progress.widen within)) value rest ↔ Reads reading value rest := by
  cases reading with
  | error fault => simp [Except.map]
  | ok progress =>
      obtain ⟨found, after, shorter⟩ := progress
      simp [Except.map, Progress.widen]

/-- Changing the value of a reading and widening its bound changes only the value. -/
theorem reads_map_widen_iff {α β : Type} {bound wider : Nat} {within : bound ≤ wider}
    {reading : Reading α bound} {change : α → β} {value : β} {rest : List Char} :
    Reads (reading.map fun progress => (progress.map change).widen within) value rest ↔
      ∃ inner, Reads reading inner rest ∧ change inner = value := by
  have composed : (reading.map fun progress => (progress.map change).widen within) =
      (reading.map (Progress.map change)).map (Progress.widen within) := by
    cases reading <;> rfl
  rw [composed, reads_widen_iff, reads_map_iff]

/-! ## Spaces -/

/-- There are four characters that are spaces. -/
theorem isSpace_iff (character : Char) :
    isSpace character = true ↔ character ∈ [' ', '\n', '\t', '\r'] := by
  simp [isSpace, or_assoc]

/-- No characters are blank. -/
theorem blank_nil : Blank [] := by simp [Blank]

/-- Characters are blank when the first one is a space and the others are blank. -/
theorem blank_cons_iff {character : Char} {following : List Char} :
    Blank (character :: following) ↔ isSpace character = true ∧ Blank following := by
  simp only [Blank, List.forall_mem_cons, isSpace_iff]

/-- Only spaces are left when there is no next visible character. -/
theorem blank_of_nextVisible_eq_none {bound : Nat} {input : List Char}
    {fits : input.length ≤ bound} (unseen : nextVisible input fits = none) : Blank input := by
  fun_induction nextVisible input fits with
  | case1 => exact blank_nil
  | case2 _ _ _ space inductionHypothesis =>
      exact blank_cons_iff.mpr ⟨space, inductionHypothesis unseen⟩
  | case3 => cases unseen

/-- Before the next visible character stand spaces, and it is none. -/
theorem split_of_nextVisible {bound : Nat} {input : List Char} {fits : input.length ≤ bound}
    {character : Char} {rest : List Char} {shorter : rest.length < bound}
    (visible : nextVisible input fits = some ⟨character, rest, shorter⟩) :
    ∃ spaces, Blank spaces ∧ input = spaces ++ character :: rest := by
  fun_induction nextVisible input fits with
  | case1 => cases visible
  | case2 space _ _ isSpace inductionHypothesis =>
      obtain ⟨spaces, blank, split⟩ := inductionHypothesis visible
      exact ⟨space :: spaces, blank_cons_iff.mpr ⟨isSpace, blank⟩, by simp [split]⟩
  | case3 =>
      cases visible
      exact ⟨[], blank_nil, rfl⟩

/-- Nothing is visible in spaces. -/
theorem nextVisible_of_blank {bound : Nat} {input : List Char} (fits : input.length ≤ bound)
    (blank : Blank input) : nextVisible input fits = none := by
  fun_induction nextVisible input fits with
  | case1 => rfl
  | case2 _ _ _ _ inductionHypothesis =>
      exact inductionHypothesis (blank_cons_iff.mp blank).2
  | case3 _ _ _ visible => exact absurd (blank_cons_iff.mp blank).1 visible

/-- Spaces are passed over up to a character that is none. -/
theorem nextVisible_of_split {bound : Nat} {input spaces rest : List Char} {character : Char}
    (fits : input.length ≤ bound) (split : input = spaces ++ character :: rest)
    (blank : Blank spaces) (visible : isSpace character = false) :
    ∃ shorter, nextVisible input fits = some ⟨character, rest, shorter⟩ := by
  induction spaces generalizing input with
  | nil =>
      subst split
      exact ⟨fits, by simp [nextVisible, visible]⟩
  | cons space spaces inductionHypothesis =>
      subst split
      obtain ⟨isSpace, blank⟩ := blank_cons_iff.mp blank
      obtain ⟨shorter, equal⟩ := inductionHypothesis (Nat.le_of_lt fits) rfl blank
      exact ⟨shorter, by simpa [nextVisible, isSpace] using equal⟩

end JsonForms.Json
