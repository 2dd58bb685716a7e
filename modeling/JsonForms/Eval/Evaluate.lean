import JsonForms.Eval.Apply

/-!
# Evaluation

Scalars evaluate to themselves, strings included. A list has to be a form: its
head names an operation, and the operation is applied to the other elements as
operands. Whether the list may be opened, what its head is, which operation
that names and whether it takes so many operands is decided in this order and
before any operand is evaluated.
-/

namespace JsonForms

namespace Machine

/-- The action of a list that has been opened, given its elements as operands. -/
def perform (machine : Machine) : List Operand → Action Value
  | [] => Action.fail (.malformed .emptyList)
  | head :: operands =>
      match head.expr with
      | .str name =>
          match Operation.ofName? name with
          | none => Action.fail (.unknownOperation name)
          | some operation =>
              match operation.apply machine operands with
              | none => Action.fail (.arity name operation.arity operands.length)
              | some action => (Action.announce operation).bind fun _ => action
      | found => Action.fail (.malformed (.head found))

mutual

/-- The evaluation of an expression. -/
def evaluate (machine : Machine) (expr : Expr) : Action Value := fun state =>
  match expr with
  | .int value => some ⟨.ok (.int value.toInt), state⟩
  | .str text => some ⟨.ok (.str text), state⟩
  | .bool value => some ⟨.ok (.bool value), state⟩
  | .list items => Action.nested machine.limit (machine.perform (machine.operands items)) state

/-- Expressions as operands. -/
def operands (machine : Machine) : List Expr → List Operand
  | [] => []
  | expr :: following => ⟨expr, machine.evaluate expr⟩ :: machine.operands following

end

/-- A list is opened, and its elements are its operands. -/
theorem evaluate_list (machine : Machine) (items : List Expr) :
    machine.evaluate (.list items) =
      Action.nested machine.limit (machine.perform (machine.operands items)) := by
  funext state
  rw [evaluate]

/-- The operands of a list are its elements with their evaluations, in order. -/
theorem operands_eq_map (machine : Machine) (items : List Expr) :
    machine.operands items = items.map fun expr => ⟨expr, machine.evaluate expr⟩ := by
  induction items with
  | nil => rw [operands, List.map_nil]
  | cons expr following inductionHypothesis =>
      rw [operands, inductionHypothesis, List.map_cons]

end Machine

end JsonForms
