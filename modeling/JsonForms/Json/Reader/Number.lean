import JsonForms.Json.Basic
import JsonForms.Json.Reader.Progress
import JsonForms.Text.Digit

/-!
# Reading numbers

A numeral is the text of a number taken apart. Its value is worked out in
64-bit words: as many digits as fit into a word are kept exactly, and the
digits left over only shift the point. The word is then scaled by powers of ten
in double arithmetic, so the value of a long numeral is a double near to it and
not always the nearest one.
-/

namespace JsonForms.Json

open Text (digitValue)

/-- The parts of a number's text. The fraction is empty when there is none; an
exponent says whether it is negative and has at least one digit. -/
structure Numeral where
  negative : Bool
  whole : List Char
  fraction : List Char
  exponent : Option (Bool × List Char)
deriving DecidableEq, Repr

/-- The greatest significand that is kept exactly. -/
def greatestSignificand : Nat := 0xFFFFFFFFFFFFFFFF

/-- The greatest exponent that is told apart from larger ones. -/
def greatestExponent : Nat := 0x7FFFFFFF

/-- Appends digits to a significand as long as it fits into a word, and counts
the digits that are left over. -/
def absorb (significand : Nat) : List Char → Nat × Nat
  | [] => (significand, 0)
  | digit :: following =>
      let next := significand * 10 + digitValue digit
      if next ≤ greatestSignificand then absorb next following
      else (significand, following.length + 1)

/-- The value of an exponent's digits, or the digits after the one that makes it too large. -/
def exponentValue (sum : Nat) : List Char → Except (List Char) Nat
  | [] => .ok sum
  | digit :: following =>
      let next := sum * 10 + digitValue digit
      if next ≤ greatestExponent then exponentValue next following else .error following

/-- The double nearest to a power of ten; `10 ^ 308` is the last one. -/
def powerOfTen (exponent : Nat) : Float := Float.ofScientific 1 false exponent

/-- The exponent of the greatest power of ten that is a double. -/
def greatestPower : Nat := 308

/-- A double divided by a power of ten, by steps of the greatest power until
nothing is left of it. -/
def scaleDown (value : Float) (exponent : Nat) : Float :=
  if exponent ≤ greatestPower then value / powerOfTen exponent
  else if value == 0 then value
  else scaleDown (value / powerOfTen greatestPower) (exponent - greatestPower)
termination_by exponent
decreasing_by simp only [greatestPower] at *; omega

/-- A significand times a power of ten, or nothing when that is beyond all doubles. -/
def scale (significand : Nat) (exponent : Int) : Option Float :=
  if exponent < 0 then some (scaleDown significand.toFloat exponent.natAbs)
  else if exponent.toNat ≤ greatestPower then
    let scaled := significand.toFloat * powerOfTen exponent.toNat
    if scaled.isInf then none else some scaled
  else if significand = 0 then some 0
  else none

namespace Numeral

/-- The double with the numeral's sign. -/
def signed (numeral : Numeral) (magnitude : Float) : Number :=
  .double (if numeral.negative then -magnitude else magnitude)

/-- The value of a numeral that is a whole number of one word. Negative words
below the signed range, and negative zero, are doubles. -/
def ofWord (numeral : Numeral) (word : Nat) : Number :=
  if !numeral.negative then .integer word
  else if 1 ≤ word ∧ word ≤ 0x8000000000000000 then .integer (-word)
  else numeral.signed word.toFloat

/-- The value of a numeral that is not a whole number of one word. -/
def ofScaled (numeral : Numeral) (significand : Nat) (exponent : Int) :
    Except (List Char) Number :=
  match scale significand exponent with
  | some magnitude => .ok (numeral.signed magnitude)
  | none => .error []

/-- The value of a numeral. When it is beyond all doubles, the result holds the
digits that did not have to be looked at to see that. -/
def value (numeral : Numeral) : Except (List Char) Number :=
  let (word, dropped) := absorb 0 numeral.whole
  if numeral.fraction.isEmpty && numeral.exponent.isNone && dropped = 0 then
    .ok (numeral.ofWord word)
  else
    let (significand, unused) := absorb word numeral.fraction
    let point : Int := dropped - (numeral.fraction.length - unused)
    match numeral.exponent with
    | none => numeral.ofScaled significand point
    | some (down, digits) =>
        match exponentValue 0 digits with
        | .ok exponent =>
            numeral.ofScaled significand (if down then point - exponent else point + exponent)
        | .error unread =>
            if significand = 0 || down then .ok (numeral.signed 0) else .error unread

end Numeral

/-- Dropping characters from the front leaves no more than there were. -/
theorem length_dropWhile_le (holds : Char → Bool) (characters : List Char) :
    (characters.dropWhile holds).length ≤ characters.length :=
  (List.dropWhile_sublist holds).length_le

/-- What follows a character is shorter than a bound that the whole is shorter than. -/
theorem length_lt_of_cons {character : Char} {following : List Char} {bound : Nat}
    (fits : (character :: following).length < bound) : following.length < bound :=
  Nat.lt_of_succ_lt fits

/-- Reads the digits of an exponent and completes the numeral with them. -/
def scanExponentDigits {bound : Nat} (numeral : Numeral) (down : Bool) (input : List Char)
    (fits : input.length < bound) : Reading Numeral bound :=
  let digits := input.takeWhile Char.isDigit
  if digits.isEmpty then
    .error ⟨if input.isEmpty then .endInValue else .invalidNumber, input, 1⟩
  else
    .ok ⟨{ numeral with exponent := some (down, digits) }, input.dropWhile Char.isDigit,
      Nat.lt_of_le_of_lt (length_dropWhile_le _ _) fits⟩

/-- Reads an exponent, if there is one, and completes the numeral with it. -/
def scanExponent {bound : Nat} (numeral : Numeral) (input : List Char)
    (fits : input.length < bound) : Reading Numeral bound :=
  match input with
  | 'e' :: '+' :: digits | 'E' :: '+' :: digits =>
      scanExponentDigits numeral false digits (length_lt_of_cons (length_lt_of_cons fits))
  | 'e' :: '-' :: digits | 'E' :: '-' :: digits =>
      scanExponentDigits numeral true digits (length_lt_of_cons (length_lt_of_cons fits))
  | 'e' :: digits | 'E' :: digits =>
      scanExponentDigits numeral false digits (length_lt_of_cons fits)
  | rest => .ok ⟨numeral, rest, fits⟩

/-- Reads a fraction, if there is one, and what may follow it. -/
def scanFraction {bound : Nat} (numeral : Numeral) (input : List Char)
    (fits : input.length < bound) : Reading Numeral bound :=
  match input with
  | '.' :: following =>
      let digits := following.takeWhile Char.isDigit
      if digits.isEmpty then
        .error ⟨if following.isEmpty then .endInValue else .invalidNumber, following, 1⟩
      else
        scanExponent { numeral with fraction := digits } (following.dropWhile Char.isDigit)
          (Nat.lt_of_le_of_lt (length_dropWhile_le _ _) (length_lt_of_cons fits))
  | rest => scanExponent numeral rest fits

/-- Reads a numeral whose sign, if any, has been read. A leading zero stands alone. -/
def scanNumeral (negative : Bool) (input : List Char) : Reading Numeral input.length :=
  match input with
  | [] => .error ⟨.endInValue, [], 0⟩
  | first :: following =>
      let digits := following.takeWhile Char.isDigit
      if !first.isDigit then .error ⟨.invalidNumber, first :: following, 1⟩
      else if first = '0' && !digits.isEmpty then .error ⟨.invalidNumber, following, 1⟩
      else
        scanFraction ⟨negative, first :: digits, [], none⟩ (following.dropWhile Char.isDigit)
          (Nat.lt_succ_of_le (length_dropWhile_le _ _))

/-- Reads a number whose sign, if any, has been read. -/
def readNumber (negative : Bool) (input : List Char) : Reading Number input.length :=
  match scanNumeral negative input with
  | .error fault => .error fault
  | .ok ⟨numeral, rest, shorter⟩ =>
      match numeral.value with
      | .ok result => .ok ⟨result, rest, shorter⟩
      | .error unread => .error ⟨.numberOutOfRange, unread ++ rest, 0⟩

end JsonForms.Json
