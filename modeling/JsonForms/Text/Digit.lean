/-!
# Decimal digits

The values of digits and of texts made of digits.
-/

namespace JsonForms.Text

/-- The value of a decimal digit. -/
def digitValue (digit : Char) : Nat := digit.toNat - '0'.toNat

/-- The value of a digit is how far it stands behind zero. -/
theorem digitValue_eq (digit : Char) : digitValue digit = digit.toNat - 48 := rfl

-- Comparing two open sums of digits would otherwise count the subtraction down.
attribute [irreducible] digitValue

/-- The digit that a number below ten is written with has its value. -/
@[simp]
theorem digitValue_digitChar {value : Nat} (small : value < 10) :
    digitValue value.digitChar = value := by
  rw [digitValue_eq, Nat.toNat_digitChar_of_lt_ten small]
  omega

/-- The number that digits stand for, after those of `sum`. -/
def decimalValue (sum : Nat) : List Char → Nat
  | [] => sum
  | digit :: following => decimalValue (sum * 10 + digitValue digit) following

/-- The value of digits in a row goes on from that of the first ones. -/
theorem decimalValue_append (sum : Nat) (front back : List Char) :
    decimalValue sum (front ++ back) = decimalValue (decimalValue sum front) back := by
  induction front generalizing sum with
  | nil => rfl
  | cons digit front inductionHypothesis =>
      simp only [List.cons_append, decimalValue, inductionHypothesis]

/-- More digits never make a number smaller. -/
theorem le_decimalValue (sum : Nat) (digits : List Char) : sum ≤ decimalValue sum digits := by
  induction digits generalizing sum with
  | nil => exact Nat.le_refl _
  | cons digit following inductionHypothesis =>
      have further := inductionHypothesis (sum * 10 + digitValue digit)
      simp only [decimalValue]
      omega

end JsonForms.Text
