import JsonForms.Settings
import JsonForms.Proofs.Grammar.RoundTrip

/-!
# Which texts set a limit

`Settings.States` is authoritative for the variable that sets the limit: blanks, one plus
or none, a run of digits, blanks, and the number of the digits is a positive word. It
speaks of the whole text as it is written, of digits of any number, and of no trimming.
The setting is read exactly by it; every other text leaves the limit at its default and
is quoted in one warning.
-/

namespace JsonForms

open Grammar

namespace Text

/-- Characters all of which have the property White_Space. -/
def Blanks (text : List Char) : Prop :=
  ∀ character ∈ text, isBlank character = true

/-- What is blank at the front of a text is blanks. -/
theorem blanks_takeWhile (text : List Char) : Blanks (text.takeWhile isBlank) :=
  fun _ member => List.mem_takeWhile_imp member

/-- Blanks are dropped up to a character that is none. -/
theorem dropWhile_blanks {blanks rest : List Char} (blank : Blanks blanks)
    (visible : ∀ character ∈ rest.head?, isBlank character = false) :
    (blanks ++ rest).dropWhile isBlank = rest := by
  rw [List.dropWhile_append_of_pos blank]
  cases rest with
  | nil => rfl
  | cons first rest => exact List.dropWhile_cons_of_neg (by simp [visible first rfl])

/-- What is trimmed away are blanks. -/
theorem trimBlanks_splits (text : List Char) :
    ∃ before after, text = before ++ trimBlanks text ++ after ∧ Blanks before ∧ Blanks after := by
  let started := text.dropWhile isBlank
  refine ⟨text.takeWhile isBlank, (started.reverse.takeWhile isBlank).reverse, ?_,
    blanks_takeWhile text, ?_⟩
  · have ended : trimBlanks text ++ (started.reverse.takeWhile isBlank).reverse = started := by
      rw [trimBlanks, ← List.reverse_append, List.takeWhile_append_dropWhile, List.reverse_reverse]
    rw [List.append_assoc, ended, List.takeWhile_append_dropWhile]
  · intro character member
    exact blanks_takeWhile _ character (List.mem_reverse.mp member)

/-- A text that holds no blank is what is left of it between blanks. -/
theorem trimBlanks_between {before inner after : List Char} (front : Blanks before)
    (back : Blanks after) (nonempty : inner ≠ [])
    (visible : ∀ character ∈ inner, isBlank character = false) :
    trimBlanks (before ++ inner ++ after) = inner := by
  have started : (before ++ (inner ++ after)).dropWhile isBlank = inner ++ after := by
    refine dropWhile_blanks front fun character head => ?_
    rw [List.head?_append_of_ne_nil _ nonempty] at head
    exact visible character (List.mem_of_head? head)
  have reversed : (after.reverse ++ inner.reverse).dropWhile isBlank = inner.reverse := by
    refine dropWhile_blanks (fun character member => ?_) fun character head => ?_
    · exact back character (List.mem_reverse.mp member)
    · exact visible character (List.mem_reverse.mp (List.mem_of_head? head))
  rw [trimBlanks, List.append_assoc, started, List.reverse_append, reversed, List.reverse_reverse]

/-- No digit is blank. -/
theorem isBlank_of_isDigit {character : Char} (isDigit : character.isDigit = true) :
    isBlank character = false := by
  obtain ⟨least, greatest⟩ := Char.isDigit_iff_toNat.mp isDigit
  simp only [Char.reduceToNat] at least greatest
  simp only [isBlank, inRanges, whiteSpaceRanges, CodeRange.holds, List.any_cons, List.any_nil,
    Bool.or_eq_false_iff, Bool.and_eq_false_iff, decide_eq_false_iff_not, and_true]
  omega

end Text

namespace Settings

open Text

/-- What may stand before the digits: one plus, or nothing. -/
inductive Sign : List Char → Prop where
  | none : Sign []
  | plus : Sign ['+']

/-- The texts that set a limit, each with the limit that it sets. -/
inductive States : List Char → Nat → Prop where
  | mk {before sign digits after limit} (front : Blanks before) (signed : Sign sign)
      (number : Digits digits limit) (back : Blanks after) (positive : 1 ≤ limit)
      (word : limit ≤ 0xFFFFFFFFFFFFFFFF) :
      States (before ++ (sign ++ digits) ++ after) limit

/-- A text sets one limit at most, and only when it is that of the digits left after trimming. -/
theorem limit?_eq_some_iff_trimmed (text : List Char) (limit : Nat) :
    limit? text = some limit ↔
      ∃ sign digits, trimBlanks text = sign ++ digits ∧ Sign sign ∧ Digits digits limit ∧
        1 ≤ limit ∧ limit ≤ 0xFFFFFFFFFFFFFFFF := by
  have ofDigits : ∀ digits : List Char,
      (if digits.isEmpty || !digits.all Char.isDigit then none
        else if 1 ≤ decimalValue 0 digits && decimalValue 0 digits ≤ greatestLimit then
          some (decimalValue 0 digits) else none) = some limit ↔
        Digits digits limit ∧ 1 ≤ limit ∧ limit ≤ 0xFFFFFFFFFFFFFFFF := by
    intro digits
    rw [Json.digits_iff]
    simp only [Bool.or_eq_true, List.isEmpty_iff, Bool.not_eq_true', List.all_eq_false,
      Option.ite_none_left_eq_some, Bool.and_eq_true, decide_eq_true_eq,
      Option.ite_none_right_eq_some, Option.some.injEq]
    constructor
    · rintro ⟨run, ⟨positive, word⟩, rfl⟩
      push Not at run
      exact ⟨⟨run.1, run.2, rfl⟩, positive, word⟩
    · rintro ⟨⟨nonempty, allDigits, rfl⟩, positive, word⟩
      refine ⟨?_, ⟨positive, word⟩, rfl⟩
      push Not
      exact ⟨nonempty, allDigits⟩
  unfold limit?
  generalize trimBlanks text = trimmed
  constructor
  · intro found
    -- The sign is the plus at the front, if there is one.
    dsimp only at found
    split at found
    next digits => exact ⟨['+'], digits, rfl, .plus, (ofDigits digits).mp found⟩
    next => exact ⟨[], trimmed, rfl, .none, (ofDigits trimmed).mp found⟩
  · rintro ⟨sign, digits, rfl, signed, number⟩
    cases signed with
    | plus => exact (ofDigits digits).mpr number
    | none =>
        dsimp only [List.nil_append]
        split
        next following =>
          obtain ⟨_, allDigits, _⟩ := (Json.digits_iff _ _).mp number.1
          exact absurd (allDigits '+' (.head _)) (by decide)
        next => exact (ofDigits digits).mpr number

/-- A limit is read off a text exactly when the text states it. -/
theorem limit?_eq_some_iff (text : List Char) (limit : Nat) :
    limit? text = some limit ↔ States text limit := by
  rw [limit?_eq_some_iff_trimmed]
  constructor
  · rintro ⟨sign, digits, trimmed, signed, number, positive, word⟩
    obtain ⟨before, after, split, front, back⟩ := trimBlanks_splits text
    rw [split, trimmed]
    exact .mk front signed number back positive word
  · rintro ⟨front, signed, number, back, positive, word⟩
    obtain ⟨nonempty, allDigits, _⟩ := (Json.digits_iff _ _).mp number
    refine ⟨_, _, trimBlanks_between front back ?_ ?_, signed, number, positive, word⟩
    · exact List.append_ne_nil_of_right_ne_nil _ nonempty
    · intro character member
      obtain inSign | inDigits := List.mem_append.mp member
      · cases signed with
        | none => cases inSign
        | plus =>
            rw [List.mem_singleton.mp inSign]
            decide
      · exact isBlank_of_isDigit (allDigits character inDigits)

/-- The decimal digits of a positive word state it, with blanks around them or none. -/
theorem states_toDigits {before after : List Char} {limit : Nat} (front : Blanks before)
    (back : Blanks after) (positive : 1 ≤ limit) (word : limit ≤ 0xFFFFFFFFFFFFFFFF) :
    States (before ++ Nat.toDigits 10 limit ++ after) limit :=
  .mk front .none (digits_toDigits limit) back positive word

/-- A stated limit is in the range from one to the greatest word without a sign. -/
theorem States.bounds {text : List Char} {limit : Nat} (states : States text limit) :
    1 ≤ limit ∧ limit ≤ 0xFFFFFFFFFFFFFFFF := by
  obtain ⟨_, _, _, _, positive, word⟩ := states
  exact ⟨positive, word⟩

/-- The variable is read exactly: a text that states a limit sets it and nothing is logged,
and every other text leaves the default and is quoted as it is in one warning. Whatever the
text, the limit in force is a positive word, and every positive word is set by its decimal
digits with any blanks around them. -/
theorem limits_are_read_exactly (raw : String) :
    (∀ limit, limitOf (some raw) = (limit, []) ↔ States raw.toList limit) ∧
    (limitOf (some raw) = (10000, [⟨.warn,
        "ignoring JEXP_MAX_DEPTH: expected a positive integer", [("value", raw)]⟩]) ↔
      ¬ ∃ limit, States raw.toList limit) ∧
    (1 ≤ (limitOf (some raw)).1 ∧ (limitOf (some raw)).1 ≤ 0xFFFFFFFFFFFFFFFF) ∧
    ∀ limit before after, 1 ≤ limit → limit ≤ 0xFFFFFFFFFFFFFFFF → Blanks before →
      Blanks after →
        limitOf (some (String.ofList (before ++ Nat.toDigits 10 limit ++ after))) =
          (limit, []) := by
  have states : ∀ {text : String} {limit}, States text.toList limit →
      limitOf (some text) = (limit, []) := by
    intro text limit stated
    rw [limitOf, (limit?_eq_some_iff text.toList limit).mpr stated]
  have written : ∀ limit before after, 1 ≤ limit → limit ≤ 0xFFFFFFFFFFFFFFFF → Blanks before →
      Blanks after →
        limitOf (some (String.ofList (before ++ Nat.toDigits 10 limit ++ after))) =
          (limit, []) := by
    intro limit before after positive word front back
    refine states ?_
    rw [String.toList_ofList]
    exact states_toDigits front back positive word
  cases found : limit? raw.toList with
  | some limit =>
      have stated := (limit?_eq_some_iff _ _).mp found
      rw [states stated]
      refine ⟨fun other => ?_, ?_, stated.bounds, written⟩
      · rw [← limit?_eq_some_iff, found]
        simp
      · simpa using ⟨limit, stated⟩
  | none =>
      have unstated : ∀ limit, ¬ States raw.toList limit := by
        intro limit stated
        rw [(limit?_eq_some_iff _ _).mpr stated] at found
        cases found
      have ignores : limitOf (some raw) = (defaultLimit, [ignored raw]) := by rw [limitOf, found]
      rw [ignores]
      refine ⟨fun limit => ?_, ?_, by simp [defaultLimit], written⟩
      · simpa using unstated limit
      · simpa [defaultLimit, ignored, limitVariable] using unstated

/-- Leading zeros do not count, and blanks between the sign and the digits are not allowed. -/
example : limitOf (some "\t+00250\u3000") = (250, []) ∧
    limitOf (some "+ 250") = (10000, [ignored "+ 250"]) := by decide +kernel

end Settings

end JsonForms
