import JsonForms.Eval.Action

/-!
# Operands

An operation receives its operands as they are written, together with the
action that evaluates each of them. It decides which of them are evaluated, in
which order and how often, and which are taken literally.
-/

namespace JsonForms

/-- An operand: the expression that is written, and its evaluation. -/
structure Operand where
  expr : Expr
  run : Action Value

namespace Operand

/-- The name of a variable, taken as it is written. -/
def variableName (operand : Operand) (operation : Operation) (position : Nat) : Action String :=
  match operand.expr with
  | .str name => pure name
  | found => Action.fail (.expectedLiteral operation position .variableName found)

/-- A number of times or of slots, taken as it is written. -/
def count (operand : Operand) (operation : Operation) (position : Nat) : Action Nat :=
  match operand.expr with
  | .int value =>
      if 0 ≤ value.toInt then pure value.toInt.toNat
      else Action.fail (.expectedLiteral operation position .count operand.expr)
  | found => Action.fail (.expectedLiteral operation position .count found)

/-- Evaluates operands one after another for the value of the last one. -/
def runLast (first : Operand) : List Operand → Action Value
  | [] => first.run
  | next :: following => first.run.bind fun _ => runLast next following

/-- Evaluates operands one after another. -/
def runEach : List Operand → Action Unit
  | [] => Action.pure ()
  | operand :: following => operand.run.bind fun _ => runEach following

/-- Evaluates operands one after another and prints each value at once. -/
def printEach : List Operand → Action Unit
  | [] => Action.pure ()
  | operand :: following =>
      operand.run.bind fun value =>
        (Action.writeLine value).bind fun _ => printEach following

end Operand

end JsonForms
