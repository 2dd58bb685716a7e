import JsonForms.Expr.Printer
import JsonForms.Operation.Basic
import JsonForms.Sink
import JsonForms.Value.Basic

/-!
# Evaluation errors

Why an evaluation cannot give a value. Every error ends the whole evaluation.
An error keeps what it is about; its wording is made from that.
-/

namespace JsonForms

/-- A list that is no form. -/
inductive Malformation where
  | emptyList
  | head (found : Expr)
deriving DecidableEq

/-- What an operand that is not evaluated has to be. -/
inductive Literal where
  | variableName
  | count
deriving DecidableEq, Repr

/-- Operands whose kinds an operation has no meaning for. -/
inductive Mismatch where
  | abs (found : Value.Kind)
  | add (left right : Value.Kind)
  | order (operation : Operation) (left right : Value.Kind)
deriving DecidableEq, Repr

/-- An integer result that cannot be represented, by the operands it has. -/
inductive Overflow where
  | abs (operand : Int)
  | add (left right : Int)
deriving DecidableEq, Repr

/-- Why an evaluation failed. -/
inductive EvalError where
  | unknownOperation (name : String)
  | undefinedVariable (name : String)
  | arity (name : String) (expected : Arity) (found : Nat)
  | expectedLiteral (operation : Operation) (position : Nat) (expected : Literal) (found : Expr)
  | typeMismatch (cause : Mismatch)
  | arithmeticTrap (cause : Overflow)
  | malformed (cause : Malformation)
  | allocation (operation : Operation) (count : Nat)
  | depthExceeded (limit : Nat)
  | output (cause : Sink.Refusal)
deriving DecidableEq

/-- What is said of a list that is no form. -/
def Malformation.message : Malformation → String
  | .emptyList => "empty list has no operation"
  | .head found =>
      "operation name must be a string, got " ++ found.kindName ++ " " ++ found.text

/-- The words for a literal operand. -/
def Literal.description : Literal → String
  | .variableName => "a variable name"
  | .count => "a non-negative integer literal"

/-- What is said of mismatched operands. -/
def Mismatch.message : Mismatch → String
  | .abs found => "'abs' requires integer, got " ++ found.name
  | .add left right => "cannot add " ++ left.name ++ " and " ++ right.name
  | .order operation left right =>
      "'" ++ operation.name ++ "' cannot compare " ++ left.name ++ " and " ++ right.name

/-- What is said of an overflow. -/
def Overflow.message : Overflow → String
  | .abs operand => "abs(" ++ toString operand ++ ") overflows"
  | .add left right => toString left ++ " + " ++ toString right ++ " overflows"

/-- The message of an evaluation error. -/
def EvalError.message : EvalError → String
  | .unknownOperation name => "unknown operation: " ++ name
  | .undefinedVariable name => "unknown variable: " ++ name
  | .arity name expected found =>
      "'" ++ name ++ "' expects " ++ expected.text ++ " operand(s), got " ++ toString found
  | .expectedLiteral operation position expected found =>
      "'" ++ operation.name ++ "' operand " ++ toString position ++ " must be " ++
        expected.description ++ ", got " ++ found.text
  | .typeMismatch cause => "type mismatch: " ++ cause.message
  | .arithmeticTrap cause => "arithmetic trap: " ++ cause.message
  | .malformed cause => "malformed expression: " ++ cause.message
  | .allocation operation count =>
      "'" ++ operation.name ++ "' cannot allocate " ++ toString count ++ " slots"
  | .depthExceeded limit => "evaluation depth limit of " ++ toString limit ++ " exceeded"
  | .output cause => "failed to write output: " ++ cause.message

end JsonForms
