import JsonForms.Eval.Arithmetic
import JsonForms.Proofs.Evaluation.Parts

/-!
# Words of 64 bits

Sums and negations of words wrap, so whether a result is the exact one is found
out by a check: the least word has no negation, and a sum of two words of one
sign that has the other sign has wrapped. Main statements: by these checks a word
is computed exactly when a word is the exact result, and it is that one.
-/

namespace JsonForms

namespace Word

/-- The negation of a word, if it is a word. -/
def neg? (word : Int64) : Option Int64 :=
  if word = Int64.minValue then none else some (-word)

/-- The absolute value of a word, if it is a word. -/
def abs? (word : Int64) : Option Int64 :=
  if word < 0 then neg? word else some word

/-- The sum of two words, if it is a word. -/
def add? (left right : Int64) : Option Int64 :=
  if (left < 0 ↔ right < 0) ∧ ¬ (left + right < 0 ↔ left < 0) then none
  else some (left + right)

/-- A word as a word without a sign, if it is not negative. -/
def unsigned? (word : Int64) : Option UInt64 :=
  if word < 0 then none else some word.toUInt64

/-- Words of 64 bits represent the integers from `-2 ^ 63` on and below `2 ^ 63`. -/
theorem represents_iff (value : Int) :
    Arithmetic.word64.represents value ↔
      -0x8000000000000000 ≤ value ∧ value < 0x8000000000000000 := by
  simp [Arithmetic.represents]

/-- The integer of a word is in range. -/
theorem bounds (word : Int64) :
    -0x8000000000000000 ≤ word.toInt ∧ word.toInt < 0x8000000000000000 :=
  ⟨word.le_toInt, word.toInt_lt⟩

/-- The integer of a word is represented. -/
theorem represents_toInt (word : Int64) : Arithmetic.word64.represents word.toInt :=
  (represents_iff _).mpr (bounds word)

/-- An integer that is represented is that of its word. -/
theorem toInt_ofInt {value : Int} (represented : Arithmetic.word64.represents value) :
    (Int64.ofInt value).toInt = value := by
  obtain ⟨least, most⟩ := (represents_iff value).mp represented
  exact Int64.toInt_ofInt_of_le least most

/-- A word is negative when its integer is. -/
theorem lt_zero_iff (word : Int64) : word < 0 ↔ word.toInt < 0 := by
  rw [Int64.lt_iff_toInt_lt, Int64.toInt_zero]

/-- An integer that is not far from the words wraps to itself if it is a word, and
by a whole turn if it is none. -/
theorem bmod_cases (value : Int) (least : -0x10000000000000000 ≤ value)
    (most : value < 0x10000000000000000) :
    value.bmod 0x10000000000000000 = value ∧
      -0x8000000000000000 ≤ value ∧ value < 0x8000000000000000 ∨
    value.bmod 0x10000000000000000 = value - 0x10000000000000000 ∧ 0x8000000000000000 ≤ value ∨
    value.bmod 0x10000000000000000 = value + 0x10000000000000000 ∧ value < -0x8000000000000000 := by
  rw [Int.bmod_def]
  split <;> omega

/-- The negation of a word is exact, and it is refused exactly when it is out of range. -/
theorem toInt_neg? (word : Int64) :
    (neg? word).map Int64.toInt =
      if Arithmetic.word64.represents (-word.toInt) then some (-word.toInt) else none := by
  have ⟨least, most⟩ := bounds word
  rw [neg?]
  by_cases lowest : word = Int64.minValue
  · have outside : ¬ Arithmetic.word64.represents (-word.toInt) := by
      rw [represents_iff, lowest, Int64.toInt_minValue]
      omega
    rw [if_pos lowest, if_neg outside, Option.map_none]
  · have above : word.toInt ≠ Int64.minValue.toInt := fun same =>
      lowest (Int64.toInt_inj.mp same)
    have inside : Arithmetic.word64.represents (-word.toInt) := by
      rw [Int64.toInt_minValue] at above
      rw [represents_iff]
      omega
    have exact : (-word).toInt = -word.toInt := by
      have wraps := bmod_cases (-word.toInt) (by omega) (by omega)
      have bounds := (represents_iff _).mp inside
      have negated : (-word).toInt = (-word.toInt).bmod 0x10000000000000000 :=
        Int64.toInt_neg word
      omega
    rw [if_neg lowest, if_pos inside, Option.map_some, exact]

/-- The absolute value of a word is exact, and it is refused exactly when it is out of range. -/
theorem toInt_abs? (word : Int64) :
    (abs? word).map Int64.toInt =
      if Arithmetic.word64.represents word.toInt.natAbs then some (word.toInt.natAbs : Int)
      else none := by
  simp only [abs?, lt_zero_iff]
  by_cases negative : word.toInt < 0
  · rw [if_pos negative, toInt_neg?, Int.ofNat_natAbs_of_nonpos (Int.le_of_lt negative)]
  · have same := Int.natAbs_of_nonneg (Int.not_lt.mp negative)
    rw [if_neg negative, same, if_pos (represents_toInt word), Option.map_some]

/-- The sum of two words is exact, and it is refused exactly when it is out of range. -/
theorem toInt_add? (left right : Int64) :
    (add? left right).map Int64.toInt =
      if Arithmetic.word64.represents (left.toInt + right.toInt) then
        some (left.toInt + right.toInt)
      else none := by
  have ⟨leftLeast, leftMost⟩ := bounds left
  have ⟨rightLeast, rightMost⟩ := bounds right
  have wraps := bmod_cases (left.toInt + right.toInt) (by omega) (by omega)
  have added : (left + right).toInt = (left.toInt + right.toInt).bmod 0x10000000000000000 :=
    Int64.toInt_add left right
  rw [← added] at wraps
  simp only [add?, lt_zero_iff]
  by_cases inside : Arithmetic.word64.represents (left.toInt + right.toInt)
  · have bounds := (represents_iff _).mp inside
    have exact : (left + right).toInt = left.toInt + right.toInt := by omega
    rw [if_pos inside, if_neg (by omega), Option.map_some, exact]
  · have outside := mt (represents_iff _).mpr inside
    rw [if_neg inside, if_pos (by omega), Option.map_none]

/-- A number that is written is a word without a sign. -/
theorem toNat_unsigned? (expr : Expr) :
    (expr.int?.bind unsigned?).map UInt64.toNat = expr.count? := by
  cases expr with
  | int word =>
      rw [Expr.int?, Option.bind_some]
      simp only [unsigned?, Expr.count?, lt_zero_iff]
      by_cases negative : word.toInt < 0
      · rw [if_pos negative, if_neg (Int.not_le.mpr negative), Option.map_none]
      · have nonnegative := Int.not_lt.mp negative
        have ordered : 0 ≤ word := by rwa [Int64.le_iff_toInt_le, Int64.toInt_zero]
        rw [if_neg negative, if_pos nonnegative, Option.map_some, Int64.toNat_toInt,
          Int64.toNat_toUInt64_of_le ordered]
  | str | bool | list => rfl

end Word

end JsonForms
