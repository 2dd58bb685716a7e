import JsonForms.Eval.Arithmetic
import JsonForms.Eval.Operand

/-!
# What operations do

Applying an operation to operands gives the action that it stands for, or
nothing when it does not take that many operands. Main statement: an operation
applies exactly to the numbers of operands that its arity accepts.
-/

namespace JsonForms

/-- Memory as far as a program can tell: for which numbers of slots an array can
be reserved. Nothing is assumed of it, since a reservation can fail for reasons
that have nothing to do with the program. -/
class Memory where
  reserves : Nat → Bool

/-- The memory that reserves every array of fewer slots than a bound. -/
abbrev Memory.below (bound : Nat) : Memory := ⟨fun count => count < bound⟩

/-- What evaluations depend on besides the program: the integers they can
compute, the memory for their arrays, how many forms can be open at once, and how
often each loop may test its condition. -/
structure Machine where
  arithmetic : Arithmetic
  memory : Memory
  limit : Nat
  passes : Nat

namespace Operation

/-- Makes an array of empty slots, if they can be reserved. -/
def allocate (memory : Memory) (count : Nat) : Action Value :=
  if memory.reserves count then pure (.array (List.replicate count .nothing))
  else Action.fail (.allocation .array count)

/-- Evaluates two operands, the left one first, and tells whether their order is
one that the operation asks for. -/
def ordered (operation : Operation) (holds : Ordering → Bool) (left right : Operand) :
    Action Value := do
  let left ← left.run
  let right ← right.run
  match left.order? right with
  | some ordering => pure (.bool (holds ordering))
  | none => Action.fail (.typeMismatch (.order operation left.kind right.kind))

/-- The action of an operation on operands. -/
def apply (machine : Machine) : Operation → List Operand → Option (Action Value)
  | .abs, [operand] => some do
      let value ← operand.run
      Action.ofExcept (machine.arithmetic.abs value)
  | .add, [left, right] => some do
      let left ← left.run
      let right ← right.run
      Action.ofExcept (machine.arithmetic.add left right)
  | .equal, [left, right] => some do
      let left ← left.run
      let right ← right.run
      pure (.bool (left = right))
  | .leq, [left, right] => some (ordered .leq Ordering.isLE left right)
  | .geq, [left, right] => some (ordered .geq Ordering.isGE left right)
  | .get, [target] => some do
      let name ← target.variableName .get 0
      Action.lookup name
  | .set, [target, operand] => some do
      let name ← target.variableName .set 0
      let value ← operand.run
      Action.assign name value
      pure value
  | .seq, first :: following => some (Operand.runLast first following)
  | .ifThen, [test, body] => some do
      let value ← test.run
      if value.isTruthy then body.run else pure .nothing
  | .ifThen, [test, body, otherwise] => some do
      let value ← test.run
      if value.isTruthy then body.run else otherwise.run
  | .whileTrue, test :: first :: following => some do
      Action.loop test.run (Operand.runEach (first :: following)) machine.passes
      pure .nothing
  | .repeatTimes, [count, body] => some do
      let count ← count.count .repeatTimes 0
      body.run.times count
      pure .nothing
  | .print, operands => some do
      Operand.printEach operands
      pure .nothing
  | .array, [count] => some do
      let count ← count.count .array 0
      allocate machine.memory count
  | _, _ => none

/-- An operation applies exactly to the numbers of operands that its arity accepts. -/
theorem apply_isSome_iff (machine : Machine) (operation : Operation) (operands : List Operand) :
    (operation.apply machine operands).isSome ↔ operation.arity.accepts operands.length := by
  rcases operands with _ | ⟨first, _ | ⟨second, _ | ⟨third, _ | ⟨fourth, following⟩⟩⟩⟩ <;>
    cases operation <;> simp [apply, arity, Arity.accepts]

end Operation

end JsonForms
