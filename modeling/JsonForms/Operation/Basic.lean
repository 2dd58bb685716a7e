import JsonForms.Operation.Arity

/-!
# Operations

The operations that a form can name. The set is fixed: a program cannot add to
it, and every name means the same in every evaluation.
-/

namespace JsonForms

/-- An operation. -/
inductive Operation where
  | abs
  | add
  | array
  | equal
  | geq
  | get
  | ifThen
  | leq
  | print
  | repeatTimes
  | seq
  | set
  | whileTrue
deriving DecidableEq, Repr

namespace Operation

/-- The name by which forms call an operation. -/
def name : Operation → String
  | .abs => "abs"
  | .add => "add"
  | .array => "array"
  | .equal => "equal"
  | .geq => "geq"
  | .get => "get"
  | .ifThen => "if"
  | .leq => "leq"
  | .print => "print"
  | .repeatTimes => "repeat"
  | .seq => "seq"
  | .set => "set"
  | .whileTrue => "while"

/-- How many operands an operation takes. -/
def arity : Operation → Arity
  | .abs | .array | .get => .exactly 1
  | .add | .equal | .geq | .leq | .repeatTimes | .set => .exactly 2
  | .ifThen => .between 2 3
  | .whileTrue => .atLeast 2
  | .seq => .atLeast 1
  | .print => .atLeast 0

/-- All operations, in the order of their names. -/
def all : List Operation :=
  [.abs, .add, .array, .equal, .geq, .get, .ifThen, .leq, .print, .repeatTimes, .seq, .set,
    .whileTrue]

/-- The operation of a name. -/
def ofName? (name : String) : Option Operation :=
  all.find? fun operation => operation.name = name

/-- Every operation is found by its name. -/
@[simp]
theorem ofName?_name (operation : Operation) : ofName? operation.name = some operation := by
  cases operation <;> decide

/-- A name that an operation is found by is the name of that operation. -/
theorem name_of_ofName? {name : String} {operation : Operation}
    (found : ofName? name = some operation) : operation.name = name := by
  simpa using List.find?_some found

end Operation

end JsonForms
