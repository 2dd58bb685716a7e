import JsonForms.Eval.Evaluate
import JsonForms.Proofs.Evaluation.Words

/-!
# Evaluation by position

Here the operations take their operands by position out of a list of any length,
integers are words, and open forms are counted in words. So something can go wrong
besides an error of the evaluation: an operand is not there, or a number is no
word. `Attempt.evaluate` evaluates in this way, and has an outcome of its own for
what must not happen.
-/

namespace JsonForms

/-- What must not happen. -/
inductive Breach where
  /-- An operand is taken at a position that a form of so many operands lacks. -/
  | operand (position count : Nat)
  /-- The operands from a position on are taken, which lies past the end. -/
  | operands (start count : Nat)
  /-- A number has to be a word of 64 bits and is none. -/
  | word (value : Int)
  /-- A step that does not loop has no ending. -/
  | step
deriving DecidableEq, Repr

/-- What becomes of an attempt: it ends, or a loop with such operands uses up its
passes, or something happens that must not. -/
inductive Outcome (α : Type) where
  | ended (ending : Ending α)
  | looping (operands : List Expr)
  | broken (breach : Breach)

/-- A step of an evaluation by position. -/
def Attempt (α : Type) : Type := State → Outcome α

namespace Attempt

variable {α β : Type}

/-- The attempt that does nothing and has a value. -/
protected def pure (value : α) : Attempt α :=
  fun state => .ended ⟨.ok value, state⟩

/-- One attempt after another. Only a value of the first one is gone on with. -/
protected def bind (first : Attempt α) (next : α → Attempt β) : Attempt β :=
  fun state =>
    match first state with
    | .ended ⟨.ok value, after⟩ => next value after
    | .ended ⟨.error error, after⟩ => .ended ⟨.error error, after⟩
    | .looping operands => .looping operands
    | .broken breach => .broken breach

instance : Monad Attempt where
  pure := Attempt.pure
  bind := Attempt.bind

/-- The attempt that fails with an error of the evaluation. -/
def fail (error : EvalError) : Attempt α := fun state => .ended ⟨.error error, state⟩

/-- The attempt at what must not happen. -/
def breach (breach : Breach) : Attempt α := fun _ => .broken breach

/-- An action that neither takes operands nor computes. -/
def step (action : Action α) : Attempt α :=
  fun state =>
    match action state with
    | some ending => .ended ending
    | none => .broken .step

/-- Makes an attempt inside one more form. The number of open forms is a word when
it goes up, and not zero when it goes down. -/
def nested (limit : Nat) (inner : Attempt α) : Attempt α :=
  fun state =>
    if limit ≤ state.depth then .ended ⟨.error (.depthExceeded limit), state⟩
    else if UInt64.size ≤ state.depth + 1 then .broken (.word (state.depth + 1))
    else
      match inner { state with depth := state.depth + 1 } with
      | .ended ⟨result, after⟩ =>
          if after.depth = 0 then .broken (.word (-1))
          else .ended ⟨result, { after with depth := after.depth - 1 }⟩
      | .looping operands => .looping operands
      | .broken breach => .broken breach

/-- Makes an attempt so many times. -/
def times (attempt : Attempt α) : Nat → Attempt Unit
  | 0 => Attempt.pure ()
  | count + 1 => attempt.bind fun _ => times attempt count

/-- Makes attempts at a body as long as a test before it has a truthy value, or
until the passes are used up. -/
def loop (operands : List Expr) (test : Attempt Value) (body : Attempt Unit) : Nat → Attempt Unit
  | 0 => fun _ => .looping operands
  | passes + 1 =>
      test.bind fun value =>
        if value.isTruthy then body.bind fun _ => loop operands test body passes
        else Attempt.pure ()

/-! ## Computing -/

/-- An integer as a word. -/
def word (value : Int) : Attempt Int64 :=
  if Arithmetic.word64.represents value then Attempt.pure (Int64.ofInt value)
  else breach (.word value)

/-- A computed word as an integer, or a trap if there is none. -/
def trapping (computed : Option Int64) (otherwise : Overflow) : Attempt Value :=
  match computed with
  | some result => pure (.int result.toInt)
  | none => fail (.arithmeticTrap otherwise)

/-- The absolute value of an integer, computed with words. -/
def abs : Value → Attempt Value
  | .int operand => do
      let operandWord ← word operand
      trapping (Word.abs? operandWord) (.abs operand)
  | operand => fail (.typeMismatch (.abs operand.kind))

/-- The sum of two integers, computed with words, or one string after another. -/
def add : Value → Value → Attempt Value
  | .int left, .int right => do
      let leftWord ← word left
      let rightWord ← word right
      trapping (Word.add? leftWord rightWord) (.add left right)
  | .str left, .str right => pure (.str (left ++ right))
  | left, right => fail (.typeMismatch (.add left.kind right.kind))

/-! ## Operands -/

/-- An operand: the expression that is written, and the attempt at its evaluation. -/
structure Operand where
  expr : Expr
  run : Attempt Value

/-- An expression as an operand, given how expressions are evaluated. -/
def Operand.of (run : Expr → Attempt Value) (expr : Expr) : Operand := ⟨expr, run expr⟩

/-- The operand at a position. -/
def operand (operands : List Operand) (position : Nat) : Attempt Operand :=
  match operands[position]? with
  | some operand => pure operand
  | none => breach (.operand position operands.length)

/-- The operands from a position on. -/
def operandsFrom (operands : List Operand) (start : Nat) : Attempt (List Operand) :=
  if start ≤ operands.length then pure (operands.drop start)
  else breach (.operands start operands.length)

/-- The value of the operand at a position. -/
def value (operands : List Operand) (position : Nat) : Attempt Value := do
  let operand ← operand operands position
  operand.run

/-- The name of a variable, as it is written. -/
def Operand.variableName (operand : Operand) (operation : Operation) (position : Nat) :
    Attempt String :=
  match operand.expr.str? with
  | some name => pure name
  | none => fail (.expectedLiteral operation position .variableName operand.expr)

/-- A number of times or of slots, as it is written. It is a word without a sign,
converted from one that is not negative. -/
def Operand.count (operand : Operand) (operation : Operation) (position : Nat) : Attempt Nat :=
  match operand.expr.int?.bind Word.unsigned? with
  | some number => pure number.toNat
  | none => fail (.expectedLiteral operation position .count operand.expr)

/-- The name of a variable that is written at a position. -/
def variableName (operation : Operation) (operands : List Operand) (position : Nat) :
    Attempt String := do
  let operand ← operand operands position
  operand.variableName operation position

/-- The number that is written at a position. -/
def count (operation : Operation) (operands : List Operand) (position : Nat) : Attempt Nat := do
  let operand ← operand operands position
  operand.count operation position

/-- Evaluates operands one after another for the value of the last one. -/
def runLast (last : Value) : List Operand → Attempt Value
  | [] => pure last
  | operand :: following => do
      let value ← operand.run
      runLast value following

/-- Evaluates operands one after another. -/
def runEach : List Operand → Attempt Unit
  | [] => pure ()
  | operand :: following => do
      let _ ← operand.run
      runEach following

/-- Evaluates operands one after another and prints each value at once. -/
def printEach : List Operand → Attempt Unit
  | [] => pure ()
  | operand :: following => do
      let value ← operand.run
      step (Action.writeLine value)
      printEach following

/-! ## Operations -/

/-- Evaluates two operands and tells whether their order is one that the operation
asks for. -/
def ordered (operation : Operation) (holds : Ordering → Bool) (operands : List Operand) :
    Attempt Value := do
  let left ← value operands 0
  let right ← value operands 1
  match left.order? right with
  | some ordering => pure (.bool (holds ordering))
  | none => fail (.typeMismatch (.order operation left.kind right.kind))

/-- What an operation does with operands of any number. -/
def handle (memory : Memory) (passes : Nat) (operation : Operation) (operands : List Operand) :
    Attempt Value :=
  match operation with
  | .abs => do
      let operand ← value operands 0
      abs operand
  | .add => do
      let left ← value operands 0
      let right ← value operands 1
      add left right
  | .equal => do
      let left ← value operands 0
      let right ← value operands 1
      pure (.bool (left = right))
  | .leq => ordered .leq Ordering.isLE operands
  | .geq => ordered .geq Ordering.isGE operands
  | .get => do
      let name ← variableName .get operands 0
      step (Action.lookup name)
  | .set => do
      let name ← variableName .set operands 0
      let result ← value operands 1
      step (Action.assign name result)
      pure result
  | .seq => runLast .nothing operands
  | .ifThen => do
      let test ← value operands 0
      if test.isTruthy then value operands 1
      else
        match operands[2]? with
        | some otherwise => otherwise.run
        | none => pure .nothing
  | .whileTrue => do
      let test ← operand operands 0
      let body ← operandsFrom operands 1
      loop (operands.map Operand.expr) test.run (runEach body) passes
      pure .nothing
  | .repeatTimes => do
      let number ← count .repeatTimes operands 0
      (value operands 1).times number
      pure .nothing
  | .print => do
      printEach operands
      pure .nothing
  | .array => do
      let number ← count .array operands 0
      step (Operation.allocate memory number)

/-- What becomes of a list that has been opened. Only the number of operands is
checked before they are taken. -/
def perform (memory : Memory) (passes : Nat) : List Operand → Attempt Value
  | [] => fail (.malformed .emptyList)
  | head :: operands =>
      match head.expr with
      | .str name =>
          match Operation.ofName? name with
          | none => fail (.unknownOperation name)
          | some operation =>
              if operation.arity.accepts operands.length then do
                step (Action.announce operation)
                handle memory passes operation operands
              else fail (.arity operation.name operation.arity operands.length)
      | found => fail (.malformed (.head found))

mutual

/-- The evaluation of an expression by position. -/
def evaluate (memory : Memory) (limit passes : Nat) (expr : Expr) : Attempt Value := fun state =>
  match expr with
  | .int value => .ended ⟨.ok (.int value.toInt), state⟩
  | .str text => .ended ⟨.ok (.str text), state⟩
  | .bool value => .ended ⟨.ok (.bool value), state⟩
  | .list items => nested limit (perform memory passes (operands memory limit passes items)) state

/-- Expressions as operands. -/
def operands (memory : Memory) (limit passes : Nat) : List Expr → List Operand
  | [] => []
  | expr :: following =>
      ⟨expr, evaluate memory limit passes expr⟩ :: operands memory limit passes following

end

/-- A list is opened, and its elements are its operands. -/
theorem evaluate_list (memory : Memory) (limit passes : Nat) (items : List Expr) :
    evaluate memory limit passes (.list items) =
      nested limit (perform memory passes (operands memory limit passes items)) := by
  funext state
  rw [evaluate]

/-- The operands of a list are its elements with the attempts at them, in order. -/
theorem operands_eq_map (memory : Memory) (limit passes : Nat) (items : List Expr) :
    operands memory limit passes items = items.map (Operand.of (evaluate memory limit passes)) := by
  induction items with
  | nil => rw [operands, List.map_nil]
  | cons expr following inductionHypothesis =>
      rw [operands, inductionHypothesis, List.map_cons, Operand.of]

end Attempt

end JsonForms
