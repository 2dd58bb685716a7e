import JsonForms.Proofs.Evaluation.Depth

/-!
# What errors blame

An error tells what went wrong by naming an operation, a variable, an operand or
a number. What it names is really written in the program, and what it says of it
is true: `EvalError.Blames` is what each error promises about the program and the
state that the evaluation ended in. Most of it follows from how one list is
written, by `Expr.Raises`; that nothing happens between an error and the end of
the evaluation makes it true of the final state.
-/

namespace JsonForms

/-- The operation whose operands are mismatched. -/
def Mismatch.operation : Mismatch → Operation
  | .abs _ => .abs
  | .add _ _ => .add
  | .order operation _ _ => operation

/-- The operation whose result cannot be represented. -/
def Overflow.operation : Overflow → Operation
  | .abs _ => .abs
  | .add _ _ => .add

/-- The result that cannot be represented. -/
def Overflow.exact : Overflow → Int
  | .abs operand => operand.natAbs
  | .add left right => left + right

/-- What stands where the name of an operation should, if anything does. -/
def Malformation.head? : Malformation → Option Expr
  | .emptyList => none
  | .head found => some found

/-- The operations whose first operand is such a literal. -/
def Literal.operations : Literal → List Operation
  | .variableName => [.get, .set]
  | .count => [.repeatTimes, .array]

/-- Whether an expression is such a literal. -/
def Literal.admits : Literal → Expr → Bool
  | .variableName, expr => expr.str?.isSome
  | .count, expr => expr.count?.isSome

/-- What an error says of a program that was evaluated with some arithmetic and
some limit, and of the state that the evaluation ended in. -/
def EvalError.Blames (arithmetic : Arithmetic) (limit : Nat) (program : Expr) (final : State) :
    EvalError → Prop
  | .unknownOperation name =>
      (∀ operation : Operation, operation.name ≠ name) ∧
        ∃ operands, program.Contains (.form name operands)
  | .undefinedVariable name =>
      final.environment.get? name = none ∧
        program.Contains (.form Operation.get.name [.str name])
  | .arity name expected found =>
      ∃ (operation : Operation) (operands : List Expr), operation.name = name ∧
        operation.arity = expected ∧ expected.accepts found = false ∧ operands.length = found ∧
          program.Contains (.form name operands)
  | .expectedLiteral operation position expected found =>
      operation ∈ expected.operations ∧ position = 0 ∧ expected.admits found = false ∧
        ∃ following, program.Contains (.form operation.name (found :: following))
  | .typeMismatch cause =>
      cause.operation ∈ [Operation.abs, .add, .leq, .geq] ∧
        ∃ operands, program.Contains (.form cause.operation.name operands)
  | .arithmeticTrap cause =>
      arithmetic.represents cause.exact = false ∧
        ∃ operands, program.Contains (.form cause.operation.name operands)
  | .malformed cause =>
      ∃ items, items.head? = cause.head? ∧ (Expr.list items).form? = none ∧
        program.Contains (.list items)
  | .allocation operation count =>
      operation = .array ∧
        ∃ length : Int64, length.toInt = count ∧
          program.Contains (.form operation.name [.int length])
  | .depthExceeded bound => bound = limit ∧ limit < program.nesting
  | .output refusal =>
      final.sink.room = some 0 ∧ final.sink.refusal = refusal ∧
        ∃ operands, program.Contains (.form Operation.print.name operands)

namespace Expr

/-- A number of slots is written as an integer. -/
theorem count?_eq_some_iff (expr : Expr) (count : Nat) :
    expr.count? = some count ↔ ∃ value : Int64, expr = .int value ∧ value.toInt = count := by
  cases expr with
  | int value =>
      simp only [count?, Option.ite_none_right_eq_some, Option.some.injEq, Expr.int.injEq,
        exists_eq_left']
      omega
  | str | bool | list => simp [count?]

/-- What an opened list raises blames a program that it is a part of. -/
theorem Raises.blames {expr program : Expr} {error : EvalError} (raises : expr.Raises error)
    (part : program.Contains expr) (arithmetic : Arithmetic) (limit : Nat) (final : State) :
    error.Blames arithmetic limit program final := by
  cases raises with
  | emptyList => exact ⟨_, rfl, rfl, part⟩
  | @head head _ noName =>
      refine ⟨_, rfl, ?_, part⟩
      cases head with
      | str => cases noName
      | int | bool | list => rfl
  | unknown unknown =>
      refine ⟨?_, _, part⟩
      rintro operation rfl
      rw [Operation.ofName?_name] at unknown
      cases unknown
  | arity refused => exact ⟨_, _, rfl, rfl, refused, rfl, part⟩
  | variableName literal noName =>
      exact ⟨by obtain rfl | rfl := literal <;> decide, rfl, by rw [Literal.admits, noName]; rfl,
        _, part⟩
  | count literal noCount =>
      exact ⟨by obtain rfl | rfl := literal <;> decide, rfl, by rw [Literal.admits, noCount]; rfl,
        _, part⟩
  | order ordered =>
      refine ⟨?_, _, part⟩
      obtain rfl | rfl := ordered
      · exact .tail _ (.tail _ (.head _))
      · exact .tail _ (.tail _ (.tail _ (.head _)))
  | allocation counted =>
      obtain ⟨length, rfl, same⟩ := (count?_eq_some_iff ..).mp counted
      exact ⟨rfl, length, same, part⟩

end Expr

/-- Closing forms changes nothing that errors say. -/
theorem EvalError.blames_withDepth {program : Expr} {arithmetic : Arithmetic} {limit depth : Nat}
    {final : State} {error : EvalError} :
    error.Blames arithmetic limit program (final.withDepth depth) ↔
      error.Blames arithmetic limit program final := by
  cases error <;> rfl

/-- An error that ends the action is that of the limit, or it blames the program. -/
def Action.Blaming (arithmetic : Arithmetic) (limit : Nat) (program : Expr) {α : Type}
    (action : Action α) : Prop :=
  ∀ state error final, action state = some ⟨.error error, final⟩ →
    error = .depthExceeded limit ∨ error.Blames arithmetic limit program final

namespace Action

variable {program : Expr} {arithmetic : Arithmetic} {limit : Nat} {α β : Type}

/-- A result blames the program if the error in it does. -/
theorem blaming_ofExcept {result : Except EvalError α}
    (blames : ∀ error, result = .error error → ∀ final,
      error.Blames arithmetic limit program final) :
    Blaming arithmetic limit program (ofExcept result) := by
  intro state error final ended
  cases ended
  exact .inr (blames error rfl _)

/-- The error of a sequence is that of one of its actions. -/
theorem Blaming.bind {first : Action α} {next : α → Action β}
    (blaming : Blaming arithmetic limit program first)
    (blamingNext : ∀ value, Blaming arithmetic limit program (next value)) :
    Blaming arithmetic limit program (first.bind next) := by
  intro state error final ended
  obtain ⟨_, _, found, ⟨⟩⟩ | ⟨value, middle, _, ended⟩ := ending_of_bind ended
  · exact blaming _ _ _ found
  · exact blamingNext value _ _ _ ended

/-- Blaming the program is kept by sequencing. -/
theorem blaming_sequential (arithmetic : Arithmetic) (limit : Nat) (program : Expr) :
    Sequential fun {_} (first _ : Action _) => Blaming arithmetic limit program first where
  pure _ := blaming_ofExcept fun _ failed => by cases failed
  bind := Blaming.bind

/-- An inner action is cut by the limit, or fails with an error of its own. -/
theorem Blaming.nested {inner : Action α} (blaming : Blaming arithmetic limit program inner) :
    Blaming arithmetic limit program (nested limit inner) := by
  intro state error final ended
  obtain ⟨_, after, _, found, ⟨⟩⟩ | ⟨_, ⟨⟩⟩ := ending_of_nested ended
  · exact (blaming _ _ _ found).imp_right EvalError.blames_withDepth.mpr
  · exact .inl rfl

end Action

namespace Machine

/-- The errors of opened lists blame a program that the lists are parts of. -/
theorem blaming_congruentAt (machine : Machine) {program expr : Expr}
    (part : program.Contains expr) :
    CongruentAt machine machine expr (fun _ => True)
      (fun {_} _ first _ => Action.Blaming machine.arithmetic machine.limit program first) where
  toSequenced := (Action.blaming_sequential machine.arithmetic machine.limit program).sequenced
  sameMemory := rfl
  fail raises := Action.blaming_ofExcept fun error failed final => by
    cases failed
    exact raises.blames part _ _ final
  lookup := by
    rintro name rfl state error final ended
    unfold Action.lookup at ended
    split at ended <;> cases ended
    next unbound => exact .inr ⟨unbound, part⟩
  assign _ _ := fun _ _ _ ended => by cases ended
  writeLine := by
    rintro operands value rfl - state error final ended
    rw [Action.writeLine_eq] at ended
    split at ended <;> cases ended
    next refused =>
      obtain ⟨noRoom, refusal⟩ := Sink.refused_of_write refused
      exact .inr ⟨noRoom, refusal, _, part⟩
  abs form _ := Action.blaming_ofExcept fun error failed final => by
    subst form
    obtain rfl | ⟨value, _, overflow, rfl⟩ := Arithmetic.error_of_abs failed
    · exact ⟨.head _, _, part⟩
    · exact ⟨overflow, _, part⟩
  add form _ _ := Action.blaming_ofExcept fun error failed final => by
    subst form
    obtain rfl | ⟨_, _, _, _, overflow, rfl⟩ := Arithmetic.error_of_add failed
    · exact ⟨.tail _ (.head _), _, part⟩
    · exact ⟨overflow, _, part⟩
  loop _ tests bodies :=
    (Action.blaming_sequential machine.arithmetic machine.limit program).always_loop
      (fun _ _ _ ended => nomatch ended) tests bodies _

/-- Errors blame the program that is evaluated. -/
theorem blaming_evaluate (machine : Machine) (program : Expr) :
    Action.Blaming machine.arithmetic machine.limit program (machine.evaluate program) :=
  @Sequenced.evaluate machine machine _ _
    (Action.blaming_sequential machine.arithmetic machine.limit program).sequenced program
    (fun _ part => machine.blaming_congruentAt part)
    (fun _ _ _ _ ended => by cases ended) Action.Blaming.nested

/-- An evaluation that starts with no open form and ends with an error blames
something that is written in the program. -/
theorem errors_blame_the_program (arithmetic : Arithmetic) (memory : Memory) (limit : Nat)
    (program : Expr) (state : State) (outside : state.depth = 0) (error : EvalError) (final : State)
    (ends : Ends arithmetic memory limit program state ⟨.error error, final⟩) :
    error.Blames arithmetic limit program final := by
  have fits := mt ends.not_isCut
  obtain ⟨passes, ended⟩ := ends
  obtain rfl | blames := blaming_evaluate ⟨arithmetic, memory, limit, passes⟩ program _ _ _ ended
  · -- Which list was one too many is not known here, but a program that fits has none.
    refine ⟨rfl, ?_⟩
    have exceeds := fits fun complete => complete ⟨limit, rfl⟩
    rw [outside, Nat.zero_add] at exceeds
    exact Nat.lt_of_not_le exceeds
  · exact blames

/-- A variable that is read after another one was set. -/
theorem errors_blame_the_program_get :
    let program := Expr.form "seq" [.form "set" [.str "x", .int 1], .form "get" [.str "y"]]
    let final : State := ⟨Environment.empty.set "x" (.int 1), .unlimited,
      #[.dispatch .seq 1, .dispatch .set 2, .set "x" (.int 1), .dispatch .get 2], 0⟩
    Ends .word64 (.below 16) 2 program ⟨.empty, .unlimited, #[], 0⟩
        ⟨.error (.undefinedVariable "y"), final⟩ ∧
      final.environment.get? "y" = none ∧ program.Contains (.form "get" [.str "y"]) := by
  intro program final
  have ends : Ends .word64 (.below 16) 2 program ⟨.empty, .unlimited, #[], 0⟩
      ⟨.error (.undefinedVariable "y"), final⟩ := ⟨0, rfl⟩
  exact ⟨ends, errors_blame_the_program .word64 (.below 16) 2 program _ rfl _ _ ends⟩

end Machine

end JsonForms
