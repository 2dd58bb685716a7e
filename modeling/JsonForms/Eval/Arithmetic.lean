import JsonForms.Eval.Error

/-!
# Arithmetic

Integers are computed exactly, and a result is only given when the arithmetic
can represent it. Words of 64 bits with a sign are the arithmetic of programs;
the arithmetic without bounds represents every integer.
-/

namespace JsonForms

/-- The integers that an evaluation can compute. -/
inductive Arithmetic where
  | word64
  | unbounded
deriving DecidableEq, Repr

namespace Arithmetic

/-- Whether an integer can be represented. -/
def represents : Arithmetic → Int → Bool
  | .word64, value => -0x8000000000000000 ≤ value && value < 0x8000000000000000
  | .unbounded, _ => true

/-- A result if it can be represented, and a trap otherwise. -/
def checked (arithmetic : Arithmetic) (value : Int) (otherwise : Overflow) :
    Except EvalError Value :=
  if arithmetic.represents value then .ok (.int value) else .error (.arithmeticTrap otherwise)

/-- The absolute value of an integer. -/
def abs (arithmetic : Arithmetic) : Value → Except EvalError Value
  | .int operand => arithmetic.checked operand.natAbs (.abs operand)
  | operand => .error (.typeMismatch (.abs operand.kind))

/-- The sum of two integers, or one string after another. -/
def add (arithmetic : Arithmetic) : Value → Value → Except EvalError Value
  | .int left, .int right => arithmetic.checked (left + right) (.add left right)
  | .str left, .str right => .ok (.str (left ++ right))
  | left, right => .error (.typeMismatch (.add left.kind right.kind))

/-- The only error of a result is its trap, for an integer that is not represented. -/
theorem checked_eq_error_iff (arithmetic : Arithmetic) (value : Int) (otherwise : Overflow)
    (error : EvalError) :
    arithmetic.checked value otherwise = .error error ↔
      arithmetic.represents value = false ∧ error = .arithmeticTrap otherwise := by
  rw [checked]
  split
  next represented => simp [represented]
  next overflow => simp [overflow, eq_comm]

/-- A result in words of 64 bits is trapped, or it is the same in every arithmetic. -/
theorem checked_of_word64 (arithmetic : Arithmetic) (value : Int) (otherwise : Overflow) :
    word64.checked value otherwise = .error (.arithmeticTrap otherwise) ∨
    arithmetic.checked value otherwise = word64.checked value otherwise ∧
      ∀ cause, word64.checked value otherwise ≠ .error (.arithmeticTrap cause) := by
  by_cases represented : word64.represents value
  · have alsoRepresented : arithmetic.represents value := by
      cases arithmetic with
      | word64 => exact represented
      | unbounded => rfl
    rw [checked, checked, if_pos represented, if_pos alsoRepresented]
    exact .inr ⟨rfl, nofun⟩
  · rw [checked, if_neg represented]
    exact .inl rfl

/-- An absolute value fails for an operand that is no integer, or whose absolute
value cannot be represented. -/
theorem error_of_abs {arithmetic : Arithmetic} {operand : Value} {error : EvalError}
    (failed : arithmetic.abs operand = .error error) :
    error = .typeMismatch (.abs operand.kind) ∨
      ∃ value, operand = .int value ∧ arithmetic.represents value.natAbs = false ∧
        error = .arithmeticTrap (.abs value) := by
  cases operand with
  | int value =>
      obtain ⟨overflow, rfl⟩ := (checked_eq_error_iff ..).mp failed
      exact .inr ⟨value, rfl, overflow, rfl⟩
  | str | bool | array | nothing =>
      cases failed
      exact .inl rfl

/-- A sum fails for operands that are neither integers nor strings, or are
integers whose sum cannot be represented. -/
theorem error_of_add {arithmetic : Arithmetic} {left right : Value} {error : EvalError}
    (failed : arithmetic.add left right = .error error) :
    error = .typeMismatch (.add left.kind right.kind) ∨
      ∃ first second, left = .int first ∧ right = .int second ∧
        arithmetic.represents (first + second) = false ∧
          error = .arithmeticTrap (.add first second) := by
  unfold add at failed
  split at failed
  next first second =>
    obtain ⟨overflow, rfl⟩ := (checked_eq_error_iff ..).mp failed
    exact .inr ⟨first, second, rfl, rfl, overflow, rfl⟩
  · cases failed
  · cases failed
    exact .inl rfl

/-- An absolute value in words of 64 bits is trapped, or it is the same in every
arithmetic. -/
theorem abs_of_word64 (arithmetic : Arithmetic) (operand : Value) :
    (∃ value, operand = .int value ∧
      word64.abs operand = .error (.arithmeticTrap (.abs value))) ∨
    arithmetic.abs operand = word64.abs operand ∧
      ∀ cause, word64.abs operand ≠ .error (.arithmeticTrap cause) := by
  cases operand with
  | int value =>
      obtain trapped | ⟨same, noTrap⟩ := arithmetic.checked_of_word64 value.natAbs (.abs value)
      · exact .inl ⟨value, rfl, trapped⟩
      · exact .inr ⟨same, noTrap⟩
  | str | bool | array | nothing => exact .inr ⟨rfl, nofun⟩

/-- A sum in words of 64 bits is trapped, or it is the same in every arithmetic. -/
theorem add_of_word64 (arithmetic : Arithmetic) (left right : Value) :
    (∃ first second, left = .int first ∧ right = .int second ∧
      word64.add left right = .error (.arithmeticTrap (.add first second))) ∨
    arithmetic.add left right = word64.add left right ∧
      ∀ cause, word64.add left right ≠ .error (.arithmeticTrap cause) := by
  unfold add
  split
  next first second =>
    obtain trapped | ⟨same, noTrap⟩ :=
      arithmetic.checked_of_word64 (first + second) (.add first second)
    · exact .inl ⟨first, second, rfl, rfl, trapped⟩
    · exact .inr ⟨same, noTrap⟩
  · exact .inr ⟨rfl, nofun⟩
  · exact .inr ⟨rfl, nofun⟩

end Arithmetic

end JsonForms
