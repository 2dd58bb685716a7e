import JsonForms.Proofs.Decimal.Rounding
import JsonForms.Proofs.Grammar.Numerals

/-!
# Whole numbers that are too large

A whole number that is no word is read as a double: its first digits make a word, and this is
scaled by the power of ten of the others. Both factors and the product are rounded, so the first
number that is too large to be read is not the first one that is too large for a double. It is
`Json.tooLarge`, and from there on all numbers are.
-/

namespace JsonForms.Json

open Rounding Text

/-- The least whole number that is not read, for its size. -/
def tooLarge : Nat := 17976931348623156225 * 10 ^ 289

/-! ## The factors -/

/-- A power of ten is the double that is made from one and the exponent. -/
theorem powerOfTen_eq {power : Nat} :
    powerOfTen power = ⟨Float.Model.ofScientific 1 power⟩ := by
  by_cases exact : power ≤ 22
  · have listed : ∀ power < 23, (powerOfTen power).toModel = Float.Model.ofScientific 1 power := by
      decide +kernel
    exact congrArg Float.ofModel (listed power (by omega))
  · rw [powerOfTen, Float.ofScientific, dif_neg (by omega)]
    rfl

/-- A number that needs more than 53 bits is the double made from it without an exponent. -/
theorem toFloat_eq {number : Nat} (wide : 2 ^ 53 ≤ number) :
    number.toFloat = ⟨Float.Model.ofScientific number 0⟩ := by
  change Float.ofScientific number false 0 = _
  rw [Float.ofScientific, dif_neg (by omega)]
  rfl

/-- The double nearest to a whole number is the number but for one part in `2 ^ 53`. -/
theorem nearest_units_near {number : Nat} (positive : 0 < number) :
    nearest (2 ^ 53 * number) ≤ (2 ^ 53 + 1) * number ∧
      (2 ^ 53 - 1) * number ≤ nearest (2 ^ 53 * number) := by
  have near := @nearest_near (2 ^ 53 * number) (by omega)
  omega

/-- The double for a power of ten that is not too large is the nearest one. -/
theorem holds_powerOfTen {power : Nat} (bounded : power ≤ 308) :
    Holds (powerOfTen power) (nearest (2 ^ 53 * 10 ^ power)) := by
  have held := @holds_ofScientific 1 power (by decide) (by omega)
  rw [Nat.one_mul] at held
  rw [powerOfTen_eq]
  refine held ?_
  calc nearest (2 ^ 53 * 10 ^ power)
      ≤ (2 ^ 53 + 1) * 10 ^ power := (nearest_units_near (Nat.pow_pos (by decide))).1
    _ ≤ (2 ^ 53 + 1) * 10 ^ 308 :=
        Nat.mul_le_mul_left _ (Nat.pow_le_pow_right (by decide) bounded)
    _ < 2 ^ (52 + 1025) := by decide +kernel

/-- The double for a word of 64 bits that needs more than 53 bits is the nearest one. -/
theorem holds_toFloat {number : Nat} (wide : 2 ^ 53 ≤ number) (word : number < 2 ^ 64) :
    Holds number.toFloat (nearest (2 ^ 53 * number)) := by
  have held := @holds_ofScientific number 0 (by omega) (Nat.zero_le _)
  rw [pow_zero, Nat.mul_one] at held
  rw [toFloat_eq wide]
  refine held ?_
  calc nearest (2 ^ 53 * number)
      ≤ (2 ^ 53 + 1) * number := (nearest_units_near (by omega)).1
    _ ≤ (2 ^ 53 + 1) * 2 ^ 64 := Nat.mul_le_mul_left _ (Nat.le_of_lt word)
    _ < 2 ^ (52 + 1025) := by decide +kernel

/-! ## The product -/

/-- Scaling a word fails when the product of the two nearest doubles is rounded to infinity. -/
theorem scale_eq_none_iff {word power : Nat} (wide : 2 ^ 53 ≤ word) (small : word < 2 ^ 64)
    (bounded : power ≤ 308) :
    scale word power = none ↔
      (2 ^ 54 - 1) * 2 ^ 1077 ≤
        2 * (nearest (2 ^ 53 * word) * nearest (2 ^ 53 * 10 ^ power)) := by
  have positive : 0 < 10 ^ power := Nat.pow_pos (by decide)
  have first := nearest_units_near (by omega : 0 < word)
  have second := nearest_units_near positive
  have product : 2 ^ 52 ≤ nearest (2 ^ 53 * word) * nearest (2 ^ 53 * 10 ^ power) :=
    Nat.le_trans (by omega : 2 ^ 52 ≤ nearest (2 ^ 53 * word) * 1)
      (Nat.mul_le_mul_left _ (by omega))
  have infinite := isInf_mul (holds_toFloat wide small) (holds_powerOfTen bounded)
  rw [← two_pow_le_nearest_iff product, ← infinite, scale, if_neg (by omega), Int.toNat_natCast,
    if_pos (by exact bounded)]
  dsimp only
  split_ifs with isInf <;> simp [isInf]

/-- The product of the doubles is that of the numbers but for two parts in `2 ^ 53`. -/
theorem nearest_mul_near {word power : Nat} (positive : 0 < word) :
    nearest (2 ^ 53 * word) * nearest (2 ^ 53 * 10 ^ power) ≤
        (2 ^ 53 + 1) ^ 2 * (word * 10 ^ power) ∧
      (2 ^ 53 - 1) ^ 2 * (word * 10 ^ power) ≤
        nearest (2 ^ 53 * word) * nearest (2 ^ 53 * 10 ^ power) := by
  have first := nearest_units_near positive
  have second := @nearest_units_near (10 ^ power) (Nat.pow_pos (by decide))
  have above := Nat.mul_le_mul first.1 second.1
  have below := Nat.mul_le_mul first.2 second.2
  rw [Nat.mul_mul_mul_comm, ← pow_two] at above below
  exact ⟨above, below⟩

/-- A product of `10 ^ 308` at most is in range. -/
theorem scale_of_small {word power : Nat} (wide : 2 ^ 53 ≤ word) (word_lt : word < 2 ^ 64)
    (small : word * 10 ^ power ≤ 10 ^ 308) : scale word power ≠ none := by
  have positive : 0 < word := lt_of_lt_of_le (by decide) wide
  have alone : 10 ^ power ≤ word * 10 ^ power := Nat.le_mul_of_pos_left _ positive
  have bounded : power ≤ 308 :=
    (pow_le_pow_iff_right₀ (by decide : 1 < 10)).mp (alone.trans small)
  have near := (@nearest_mul_near word power positive).1
  rw [Ne, scale_eq_none_iff wide word_lt bounded, not_le]
  calc 2 * (nearest (2 ^ 53 * word) * nearest (2 ^ 53 * 10 ^ power))
      ≤ 2 * ((2 ^ 53 + 1) ^ 2 * 10 ^ 308) :=
        Nat.mul_le_mul_left _ (near.trans (Nat.mul_le_mul_left _ small))
    _ < (2 ^ 54 - 1) * 2 ^ 1077 := by decide +kernel

/-- A product of `18 * 10 ^ 307` or more is too large, whichever way it was rounded. -/
theorem scale_of_large {word power : Nat} (wide : 2 ^ 53 ≤ word) (word_lt : word < 2 ^ 64)
    (large : 18 * 10 ^ 307 ≤ word * 10 ^ power) : scale word power = none := by
  by_cases bounded : power ≤ 308
  · have near := (@nearest_mul_near word power (by omega)).2
    rw [scale_eq_none_iff wide word_lt bounded]
    calc (2 ^ 54 - 1) * 2 ^ 1077
        ≤ 2 * ((2 ^ 53 - 1) ^ 2 * (18 * 10 ^ 307)) := by decide +kernel
      _ ≤ 2 * (nearest (2 ^ 53 * word) * nearest (2 ^ 53 * 10 ^ power)) :=
        Nat.mul_le_mul_left _ ((Nat.mul_le_mul_left _ large).trans near)
  · rw [scale, if_neg (by omega), Int.toNat_natCast, if_neg (by exact bounded),
      if_neg (by omega)]

/-- Only the first words of twenty digits before 289 others are small enough. -/
theorem scale_twenty_digits {word : Nat} (wide : 2 ^ 63 ≤ word) (word_lt : word < 2 ^ 64) :
    scale word (289 : Nat) = none ↔ 17976931348623156225 ≤ word := by
  have power : nearest (2 ^ 53 * 10 ^ 289) = 4621297602213964 * 2 ^ 961 := by decide +kernel
  have places : excess (2 ^ 53 * word) = 64 := excess_eq (by omega) (by omega)
  have product (kept : Nat) : 2 * (kept * 2 ^ 64 * (4621297602213964 * 2 ^ 961)) =
      kept * 4621297602213964 * 2 ^ 1026 := by
    have units : (2 * 2 ^ 64 * 2 ^ 961 : Nat) = 2 ^ 1026 := by decide +kernel
    rw [← units]
    generalize 2 ^ 961 = large
    ring
  have bound : (2 ^ 54 - 1) * 2 ^ 1077 = (2 ^ 54 - 1) * 2 ^ 51 * 2 ^ 1026 := by decide +kernel
  rw [scale_eq_none_iff (by omega) word_lt (by decide), power, nearest, places, product, bound,
    Nat.mul_le_mul_right_iff (Nat.two_pow_pos 1026), shiftedRight]
  split_ifs <;> omega

/-- The words on both sides of the bound. -/
example : scale 17976931348623156224 289 ≠ none ∧ scale 17976931348623156225 289 = none := by
  decide +kernel

/-! ## Numerals -/

/-- A decimal digit stands for nine at most. -/
theorem digitValue_le {digit : Char} (isDigit : digit.isDigit = true) : digitValue digit ≤ 9 := by
  obtain ⟨-, greatest⟩ := Char.isDigit_iff_toNat.mp isDigit
  simp only [Char.reduceToNat] at greatest
  rw [digitValue_eq]
  omega

/-- Digits after a number make it longer by their places. -/
theorem decimalValue_bounds {digits : List Char}
    (allDigits : ∀ digit ∈ digits, digit.isDigit = true) (sum : Nat) :
    sum * 10 ^ digits.length ≤ decimalValue sum digits ∧
      decimalValue sum digits < (sum + 1) * 10 ^ digits.length := by
  induction digits generalizing sum with
  | nil => simp [decimalValue]
  | cons digit following inductionHypothesis =>
      rw [List.forall_mem_cons] at allDigits
      have small := digitValue_le allDigits.1
      obtain ⟨least, greatest⟩ := inductionHypothesis allDigits.2 (sum * 10 + digitValue digit)
      have places : 10 ^ (digit :: following).length = 10 * 10 ^ following.length := by
        rw [List.length_cons, pow_succ']
      rw [decimalValue, places, ← Nat.mul_assoc, ← Nat.mul_assoc]
      exact ⟨(Nat.mul_le_mul_right _ (by omega)).trans least,
        greatest.trans_le (Nat.mul_le_mul_right _ (by omega))⟩

/-- What is kept of a number are its first digits, as many as a word can hold. -/
theorem absorb_bounds {digits : List Char}
    (allDigits : ∀ digit ∈ digits, digit.isDigit = true) {sum word dropped : Nat}
    (fits : sum < 2 ^ 64) (absorbed : absorb sum digits = (word, dropped)) :
    word < 2 ^ 64 ∧ word * 10 ^ dropped ≤ decimalValue sum digits ∧
      decimalValue sum digits < (word + 1) * 10 ^ dropped ∧
      (dropped ≠ 0 → 2 ^ 64 < word * 10 + 10) := by
  fun_induction absorb sum digits with
  | case1 sum =>
      cases absorbed
      exact ⟨fits, by simp [decimalValue], by simp [decimalValue], fun left => absurd rfl left⟩
  | case2 sum digit following next more inductionHypothesis =>
      rw [List.forall_mem_cons] at allDigits
      simp only [greatestSignificand] at more
      rw [decimalValue]
      exact inductionHypothesis allDigits.2 (by omega) absorbed
  | case3 sum digit following next more =>
      obtain ⟨rfl, rfl⟩ := Prod.mk.inj absorbed
      obtain ⟨least, greatest⟩ := decimalValue_bounds allDigits sum
      have small := digitValue_le ((List.forall_mem_cons.mp allDigits).1)
      simp only [greatestSignificand] at more
      exact ⟨fits, least, greatest, fun _ => by omega⟩

/-- Scaling what is kept of a number fails exactly when the number is too large. Where fewer
digits or more than 289 are left over, it is too far from the bound for rounding to matter. -/
theorem scale_eq_none_iff_tooLarge {number word dropped : Nat} (wide : 2 ^ 64 < word * 10 + 10)
    (word_lt : word < 2 ^ 64) (least : word * 10 ^ dropped ≤ number)
    (greatest : number < (word + 1) * 10 ^ dropped) :
    scale word dropped = none ↔ tooLarge ≤ number := by
  obtain ⟨unit, isUnit⟩ : ∃ unit, unit = 10 ^ 289 := ⟨_, rfl⟩
  have few : 10 ^ 308 = 10 ^ 19 * unit := isUnit ▸ by decide +kernel
  have many : 18 * 10 ^ 307 = 18 * 10 ^ 18 * unit := isUnit ▸ by decide +kernel
  have bound : tooLarge = 17976931348623156225 * unit := isUnit ▸ rfl
  have wider : 2 ^ 53 ≤ word := by omega
  have small := @scale_of_small word dropped wider word_lt
  have large := @scale_of_large word dropped wider word_lt
  rw [few] at small
  rw [many] at large
  rw [bound]
  obtain less | same | more := Nat.lt_trichotomy dropped 289
  · have power : 10 * 10 ^ dropped ≤ unit := by
      rw [← pow_succ', isUnit]
      exact pow_le_pow_right₀ (by decide) less
    have short := Nat.mul_le_mul_right (10 ^ dropped) (by omega : word + 1 ≤ 2 ^ 64)
    exact iff_of_false (small (by omega)) (by omega)
  · have power : 10 ^ dropped = unit := by rw [same, isUnit]
    rw [power] at least greatest small
    obtain fewer | twenty := Nat.lt_or_ge word (10 ^ 19)
    · have short := Nat.mul_le_mul_right unit (by omega : word + 1 ≤ 10 ^ 19)
      exact iff_of_false (small (by omega)) (by omega)
    · rw [same, scale_twenty_digits (by omega) word_lt]
      constructor
      · intro beyond
        exact (Nat.mul_le_mul_right unit beyond).trans least
      · intro beyond
        exact Nat.lt_succ_iff.mp (Nat.lt_of_mul_lt_mul_right (beyond.trans_lt greatest))
  · have power : 10 * unit ≤ 10 ^ dropped := by
      rw [isUnit, ← pow_succ']
      exact pow_le_pow_right₀ (by decide) more
    have long := Nat.mul_le_mul (by omega : 18 * 10 ^ 17 ≤ word) power
    exact iff_of_true (large (by omega)) (by omega)

/-- A whole number that is no word has a double for its value, unless it is too large. -/
theorem value_of_long {negative : Bool} {digits : List Char}
    (allDigits : ∀ digit ∈ digits, digit.isDigit = true)
    (long : greatestSignificand < decimalValue 0 digits) :
    (decimalValue 0 digits < tooLarge → ∃ magnitude,
      (⟨negative, digits, [], none⟩ : Numeral).value =
        .ok ((⟨negative, digits, [], none⟩ : Numeral).signed magnitude)) ∧
    (tooLarge ≤ decimalValue 0 digits →
      (⟨negative, digits, [], none⟩ : Numeral).value = .error []) := by
  obtain ⟨word, dropped, isAbsorbed⟩ : ∃ word dropped, absorb 0 digits = (word, dropped) :=
    ⟨_, _, rfl⟩
  obtain ⟨word_lt, least, greatest, wide⟩ := absorb_bounds allDigits (by decide) isAbsorbed
  have left : dropped ≠ 0 := by
    rintro rfl
    simp only [greatestSignificand] at long
    omega
  have value : (⟨negative, digits, [], none⟩ : Numeral).value =
      (⟨negative, digits, [], none⟩ : Numeral).ofScaled word dropped := by
    simp [Numeral.value, isAbsorbed, left, absorb]
  have bound := scale_eq_none_iff_tooLarge (wide left) word_lt least greatest
  rw [value, Numeral.ofScaled]
  cases scaled : scale word dropped with
  | none =>
      have beyond := bound.mp scaled
      exact ⟨fun below => absurd beyond (Nat.not_le.mpr below), fun _ => rfl⟩
  | some magnitude =>
      refine ⟨fun _ => ⟨magnitude, rfl⟩, fun beyond => ?_⟩
      rw [bound.mpr beyond] at scaled
      cases scaled

end JsonForms.Json
