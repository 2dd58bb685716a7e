import JsonForms.Json.Reader.Number
import JsonForms.Expr.Decode
import JsonForms.Proofs.Grammar.Reading
import Mathlib.Data.List.Induction
import Mathlib.Data.List.TakeWhile

/-!
# Reading integer literals

A reader of numbers takes the longest run of digits and then looks for a
fraction or an exponent. Where neither follows and the number fits into a
64-bit word, what was taken is an integer literal of the grammar and its value
is the word. `Json.Delimited` is the look-ahead: what follows a token in a
program never prolongs a number.
-/

namespace JsonForms.Json

open Grammar
open Text

/-! ## Digits -/

/-- The digits are the characters that the numbers below ten are written with. -/
theorem digit_iff_digitChar (digit : Char) (value : Nat) :
    Digit digit value ↔ value < 10 ∧ value.digitChar = digit := by
  have listed : ['0', '1', '2', '3', '4', '5', '6', '7', '8', '9'] =
      (List.range 10).map Nat.digitChar := by decide
  rw [Digit, listed, List.getElem?_map, Option.map_eq_some_iff]
  constructor
  · rintro ⟨index, found, rfl⟩
    obtain ⟨inside, rfl⟩ := List.getElem?_eq_some_iff.mp found
    simpa using inside
  · rintro ⟨small, rfl⟩
    exact ⟨value, List.getElem?_range small, rfl⟩

/-- The grammar's digits are the characters that readers take for digits. -/
theorem digit_iff (digit : Char) (value : Nat) :
    Digit digit value ↔ digit.isDigit = true ∧ digitValue digit = value := by
  rw [digit_iff_digitChar]
  constructor
  · rintro ⟨small, rfl⟩
    exact ⟨by simpa using small, digitValue_digitChar small⟩
  · rintro ⟨isDigit, rfl⟩
    obtain ⟨least, greatest⟩ := Char.isDigit_iff_toNat.mp isDigit
    simp only [Char.reduceToNat] at least greatest
    have small : digitValue digit < 10 := by
      rw [digitValue_eq]
      omega
    refine ⟨small, Char.toNat_inj.mp ?_⟩
    rw [Nat.toNat_digitChar_of_lt_ten small, digitValue_eq]
    omega

/-- A run of digits is a text of digits that is not empty, and its number is
the decimal value of the text. -/
theorem digits_iff (text : List Char) (number : Nat) :
    Digits text number ↔
      text ≠ [] ∧ (∀ digit ∈ text, digit.isDigit = true) ∧ decimalValue 0 text = number := by
  constructor
  · intro digits
    induction digits with
    | one last =>
        obtain ⟨isDigit, rfl⟩ := (digit_iff _ _).mp last
        simp [isDigit, decimalValue]
    | snoc prior last inductionHypothesis =>
        obtain ⟨isDigit, rfl⟩ := (digit_iff _ _).mp last
        obtain ⟨_, allDigits, rfl⟩ := inductionHypothesis
        refine ⟨by simp, ?_, by simp [decimalValue_append, decimalValue]⟩
        simpa [or_imp, forall_and, isDigit] using allDigits
  · rintro ⟨nonempty, allDigits, rfl⟩
    induction text using List.reverseRecOn with
    | nil => exact absurd rfl nonempty
    | append_singleton front digit inductionHypothesis =>
        have isDigit : digit.isDigit = true := allDigits digit (by simp)
        have last : Digit digit (digitValue digit) := (digit_iff _ _).mpr ⟨isDigit, rfl⟩
        rw [decimalValue_append]
        cases front with
        | nil => simpa [decimalValue] using Digits.one last
        | cons first front =>
            refine .snoc (inductionHypothesis (by simp) fun other member => ?_) last
            exact allDigits other (List.mem_append_left _ member)

/-- A numeral is a text of digits of which the first is zero only when it stands alone. -/
theorem natural_iff (text : List Char) (number : Nat) :
    Natural text number ↔
      ∃ first following, text = first :: following ∧ first.isDigit = true ∧
        (∀ digit ∈ following, digit.isDigit = true) ∧ (first = '0' → following = []) ∧
        decimalValue 0 text = number := by
  constructor
  · rintro (_ | ⟨digits, leading⟩)
    · exact ⟨'0', [], rfl, by decide, by simp, fun _ => rfl, by simp [decimalValue, digitValue_eq]⟩
    · obtain ⟨_, allDigits, value⟩ := (digits_iff _ _).mp digits
      exact ⟨_, _, rfl, allDigits _ (by simp),
        fun digit member => allDigits digit (by simp [member]),
        fun zero => absurd zero leading, value⟩
  · rintro ⟨first, following, rfl, isDigit, allDigits, zero, rfl⟩
    by_cases leading : first = '0'
    · obtain rfl := zero leading
      subst leading
      simpa [decimalValue, digitValue_eq] using Natural.zero
    · refine .positive ((digits_iff _ _).mpr ⟨by simp, ?_, rfl⟩) leading
      simpa [isDigit] using allDigits

/-! ## Words -/

/-- Digits of which none is left over are all of the number. -/
theorem decimalValue_of_absorb {significand word : Nat} {digits : List Char}
    (whole : absorb significand digits = (word, 0)) : decimalValue significand digits = word := by
  fun_induction absorb significand digits with
  | case1 => simpa [decimalValue] using whole
  | case2 _ _ _ _ _ inductionHypothesis =>
      simp only [decimalValue]
      exact inductionHypothesis whole
  | case3 => simp at whole

/-- No digit is left over when the number fits into a word. -/
theorem absorb_of_le {significand : Nat} {digits : List Char}
    (fits : decimalValue significand digits ≤ greatestSignificand) :
    absorb significand digits = (decimalValue significand digits, 0) := by
  induction digits generalizing significand with
  | nil => rfl
  | cons digit following inductionHypothesis =>
      have further := le_decimalValue (significand * 10 + digitValue digit) following
      simp only [decimalValue] at fits
      simp only [absorb, if_pos (Nat.le_trans further fits), decimalValue]
      exact inductionHypothesis fits

/-- The word of an integer is the integer itself, if it is in range. -/
theorem word?_integer_iff (value : Int) (word : Int64) :
    (Number.integer value).word? = some word ↔
      (-0x8000000000000000 ≤ value ∧ value ≤ 0x7FFFFFFFFFFFFFFF) ∧ Int64.ofInt value = word := by
  have bounds : value ≤ 0x7FFFFFFFFFFFFFFF ↔ value < 0x8000000000000000 := by omega
  rw [bounds]
  simp only [Number.word?]
  by_cases inside : -0x8000000000000000 ≤ value ∧ value < 0x8000000000000000
  · rw [if_pos inside, Option.some.injEq, and_iff_right inside]
  · rw [if_neg inside]
    constructor
    · intro impossible
      cases impossible
    · intro both
      exact absurd both.1 inside

/-- A number without a sign is a word up to the greatest one. -/
theorem word?_ofWord_of_unsigned {numeral : Numeral} {number : Nat}
    (sign : numeral.negative = false) (fits : number ≤ 0x7FFFFFFFFFFFFFFF) :
    (numeral.ofWord number).word? = some (Int64.ofInt number) := by
  rw [Numeral.ofWord, if_pos (by simp [sign]), word?_integer_iff]
  exact ⟨by omega, rfl⟩

/-- A number with a sign is a word down to the least one, unless it is zero. -/
theorem word?_ofWord_of_negative {numeral : Numeral} {number : Nat}
    (sign : numeral.negative = true) (nonzero : number ≠ 0) (fits : number ≤ 0x8000000000000000) :
    (numeral.ofWord number).word? = some (Int64.ofInt (-number)) := by
  rw [Numeral.ofWord, if_neg (by simp [sign]), if_pos (by omega), word?_integer_iff]
  exact ⟨by omega, rfl⟩

/-- A double is never a word. -/
theorem word?_signed (numeral : Numeral) (magnitude : Float) :
    (numeral.signed magnitude).word? = none := rfl

/-- A number with a fraction or an exponent is never a word. -/
theorem word?_of_ofScaled {numeral : Numeral} {significand : Nat} {exponent : Int}
    {number : Number} (scaled : numeral.ofScaled significand exponent = .ok number) :
    number.word? = none := by
  unfold Numeral.ofScaled at scaled
  split at scaled
  · cases scaled
    exact word?_signed _ _
  · cases scaled

/-- Only a numeral without fraction and exponent can have a word for its value. -/
theorem plain_of_word? {numeral : Numeral} {number : Number} {word : Int64}
    (valued : numeral.value = .ok number) (isWord : number.word? = some word) :
    numeral.fraction = [] ∧ numeral.exponent = none ∧
      number = numeral.ofWord (decimalValue 0 numeral.whole) := by
  unfold Numeral.value at valued
  split at valued
  next magnitude dropped absorbed =>
    split at valued
    next plain =>
      simp only [Bool.and_eq_true, List.isEmpty_iff, Option.isNone_iff_eq_none,
        decide_eq_true_eq] at plain
      obtain ⟨⟨fraction, exponent⟩, rfl⟩ := plain
      cases valued
      exact ⟨fraction, exponent, by rw [decimalValue_of_absorb absorbed]⟩
    next =>
      exfalso
      have isDouble : number.word? = none := by
        dsimp only at valued
        split at valued
        · exact word?_of_ofScaled valued
        · split at valued
          · exact word?_of_ofScaled valued
          · split at valued
            · cases valued
              exact word?_signed _ _
            · cases valued
      rw [isDouble] at isWord
      cases isWord

/-- A numeral of digits alone that fits into a word has that word for its value. -/
theorem value_of_plain {negative : Bool} {whole : List Char}
    (fits : decimalValue 0 whole ≤ greatestSignificand) :
    (⟨negative, whole, [], none⟩ : Numeral).value =
      .ok ((⟨negative, whole, [], none⟩ : Numeral).ofWord (decimalValue 0 whole)) := by
  simp [Numeral.value, absorb_of_le fits]

/-! ## Literals -/

/-- What may follow a token of a program: nothing, a space, a comma or a closing bracket. -/
def Delimited (rest : List Char) : Prop :=
  ∀ character following, rest = character :: following →
    isSpace character = true ∨ character = ',' ∨ character = ']'

/-- What a reading of an exponent keeps of the numeral before it. -/
theorem scanExponent_keeps {bound : Nat} {numeral scanned : Numeral} {input rest : List Char}
    {fits : input.length < bound} (read : Reads (scanExponent numeral input fits) scanned rest) :
    scanned.negative = numeral.negative ∧ scanned.whole = numeral.whole ∧
      scanned.fraction = numeral.fraction ∧ (scanned.exponent = none → rest = input) := by
  have digits : ∀ {down : Bool} {input : List Char} {fits : input.length < bound},
      Reads (scanExponentDigits numeral down input fits) scanned rest →
      ∃ exponent, scanned = { numeral with exponent := some exponent } := by
    intro down input fits read
    unfold scanExponentDigits at read
    dsimp only at read
    split at read
    · simp at read
    · exact ⟨_, (reads_ok_iff.mp read).1.symm⟩
  unfold scanExponent at read
  split at read
  case h_7 =>
    obtain ⟨rfl, rfl⟩ := reads_ok_iff.mp read
    exact ⟨rfl, rfl, rfl, fun _ => rfl⟩
  all_goals
    obtain ⟨exponent, rfl⟩ := digits read
    exact ⟨rfl, rfl, rfl, by simp⟩

/-- What a reading of a fraction keeps of the numeral before it. -/
theorem scanFraction_keeps {bound : Nat} {numeral scanned : Numeral} {input rest : List Char}
    {fits : input.length < bound} (read : Reads (scanFraction numeral input fits) scanned rest) :
    scanned.negative = numeral.negative ∧ scanned.whole = numeral.whole ∧
      (scanned.fraction = [] → scanned.exponent = none → rest = input) := by
  unfold scanFraction at read
  split at read
  · dsimp only at read
    split at read
    · simp at read
    next present =>
      obtain ⟨negative, whole, fraction, _⟩ := scanExponent_keeps read
      refine ⟨negative, whole, fun empty => ?_⟩
      exact absurd (List.isEmpty_iff.mpr (fraction.symm.trans empty)) present
  · obtain ⟨negative, whole, _, exponent⟩ := scanExponent_keeps read
    exact ⟨negative, whole, fun _ => exponent⟩

/-- A numeral without fraction and exponent is a numeral of the grammar. -/
theorem natural_of_scanNumeral {negative : Bool} {input rest : List Char} {scanned : Numeral}
    (read : Reads (scanNumeral negative input) scanned rest) (fraction : scanned.fraction = [])
    (exponent : scanned.exponent = none) :
    scanned.negative = negative ∧ input = scanned.whole ++ rest ∧
      Natural scanned.whole (decimalValue 0 scanned.whole) := by
  unfold scanNumeral at read
  split at read
  · simp at read
  next first following =>
    dsimp only at read
    split at read
    · simp at read
    next isDigit =>
      split at read
      · simp at read
      next alone =>
        obtain ⟨sign, whole, remains⟩ := scanFraction_keeps read
        obtain rfl := remains fraction exponent
        simp only [Bool.not_eq_true, Bool.not_eq_false'] at isDigit
        refine ⟨sign, by simp [whole], (natural_iff _ _).mpr ?_⟩
        refine ⟨first, _, whole, isDigit, ?_, ?_, rfl⟩
        · intro digit member
          exact List.mem_takeWhile_imp member
        · intro zero
          simpa [zero] using alone

/-- A text with a minus sign before it, if there is one. -/
def withSign (negative : Bool) (text : List Char) : List Char :=
  if negative then '-' :: text else text

/-- A number that is a word has an integer literal of the same value for its text. -/
theorem integer_of_readNumber {negative : Bool} {input rest : List Char} {number : Number}
    {word : Int64} (read : Reads (readNumber negative input) number rest)
    (isWord : number.word? = some word) :
    ∃ text value, input = text ++ rest ∧ Integer (withSign negative text) value ∧
      (-0x8000000000000000 ≤ value ∧ value ≤ 0x7FFFFFFFFFFFFFFF) ∧ Int64.ofInt value = word := by
  unfold readNumber at read
  split at read
  · simp at read
  next numeral middle shorter scanned =>
    split at read
    next valued =>
      obtain ⟨rfl, rfl⟩ := reads_ok_iff.mp read
      obtain ⟨fraction, exponent, rfl⟩ := plain_of_word? valued isWord
      obtain ⟨rfl, split, natural⟩ := natural_of_scanNumeral ⟨shorter, scanned⟩ fraction exponent
      refine ⟨numeral.whole, ?_⟩
      unfold Numeral.ofWord at isWord
      split at isWord
      next positive =>
        obtain ⟨inside, value⟩ := (word?_integer_iff _ _).mp isWord
        refine ⟨_, split, ?_, inside, value⟩
        simp only [Bool.not_eq_true'] at positive
        simpa [withSign, positive] using Integer.unsigned natural
      next negated =>
        simp only [Bool.not_eq_true', Bool.not_eq_false] at negated
        split at isWord
        next bounds =>
          obtain ⟨inside, value⟩ := (word?_integer_iff _ _).mp isWord
          refine ⟨_, split, ?_, inside, value⟩
          simpa [withSign, negated] using Integer.negative natural (by omega)
        · rw [word?_signed] at isWord
          cases isWord
    · simp at read

/-- What delimits a value is no part of a number. -/
theorem isDigit_of_delimited {rest : List Char} {character : Char} {following : List Char}
    (delimited : Delimited rest) (split : rest = character :: following) :
    character.isDigit = false ∧ character ≠ '.' ∧ character ≠ 'e' ∧ character ≠ 'E' := by
  rcases delimited character following split with space | rfl | rfl
  · rw [isSpace_iff] at space
    simp only [List.mem_cons, List.not_mem_nil, or_false] at space
    rcases space with rfl | rfl | rfl | rfl <;> decide
  · decide
  · decide

/-- The longest run of digits ends where a delimited rest begins. -/
theorem takeWhile_digits {digits rest : List Char}
    (allDigits : ∀ digit ∈ digits, digit.isDigit = true) (delimited : Delimited rest) :
    (digits ++ rest).takeWhile Char.isDigit = digits ∧
      (digits ++ rest).dropWhile Char.isDigit = rest := by
  rw [List.takeWhile_append_of_pos allDigits, List.dropWhile_append_of_pos allDigits]
  cases rest with
  | nil => simp
  | cons character following =>
      have stops := (isDigit_of_delimited delimited rfl).1
      simp [stops]

/-- Behind a number that is delimited there is no fraction to scan. -/
theorem scanFraction_of_delimited {bound : Nat} (numeral : Numeral) {rest : List Char}
    (fits : rest.length < bound) (delimited : Delimited rest) :
    Reads (scanFraction numeral rest fits) numeral rest := by
  have starts : ∀ {character following}, rest = character :: following →
      character ≠ '.' ∧ character ≠ 'e' ∧ character ≠ 'E' :=
    fun split => (isDigit_of_delimited delimited split).2
  unfold scanFraction
  split
  next following => exact absurd rfl (starts rfl).1
  next =>
    unfold scanExponent
    split
    case h_7 => exact reads_ok fits
    all_goals simp at starts

/-- A numeral of the grammar is taken apart as it is, and nothing after it is read. -/
theorem scanNumeral_of_natural {negative : Bool} {text rest : List Char} {number : Nat}
    (natural : Natural text number) (delimited : Delimited rest) :
    Reads (scanNumeral negative (text ++ rest)) ⟨negative, text, [], none⟩ rest := by
  obtain ⟨first, following, rfl, isDigit, allDigits, zero, rfl⟩ := (natural_iff _ _).mp natural
  obtain ⟨taken, dropped⟩ := takeWhile_digits allDigits delimited
  simp only [scanNumeral, List.cons_append, isDigit, taken, dropped]
  rw [if_neg (by simp), if_neg]
  · exact scanFraction_of_delimited _ _ delimited
  · simpa using zero

/-- A numeral that fits into a word has the value of that word. -/
theorem value_of_natural {negative : Bool} {text : List Char} {number : Nat}
    (natural : Natural text number) (fits : number ≤ greatestSignificand) :
    (⟨negative, text, [], none⟩ : Numeral).value =
      .ok ((⟨negative, text, [], none⟩ : Numeral).ofWord number) := by
  obtain ⟨_, _, _, _, _, _, rfl⟩ := (natural_iff _ _).mp natural
  exact value_of_plain fits

end JsonForms.Json
