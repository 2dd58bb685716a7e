import JsonForms.Proofs.Evaluation.Assignments
import JsonForms.Proofs.Evaluation.Blame
import JsonForms.Proofs.Evaluation.Settling

/-!
# Conditions that come before operands

Before a list evaluates any of its elements it has to meet some conditions: there is room
for one more form, it has a head that is a string, this names an operation, so many
operands are accepted, and an operand that is taken literally is such a literal.

A list may fail to meet several of them. So `Precondition.violation` tells for each of
them, whatever the others say, whether the list violates it and with what error; and the
first violation in the order of the conditions is how the evaluation ends. It is known
from the list and from the room that is left, and so it is the same whatever the
evaluations of the operands would do.
-/

namespace JsonForms

/-- The operation that a list names, if its head is the name of one. -/
def Expr.operation? (items : List Expr) : Option Operation :=
  (items.head?.bind str?).bind Operation.ofName?

/-- What the first operand of an operation has to be, if it is taken literally. -/
def Operation.literal? : Operation → Option Literal
  | .get | .set => some .variableName
  | .repeatTimes | .array => some .count
  | .abs | .add | .equal | .geq | .ifThen | .leq | .print | .seq | .whileTrue => none

/-- The conditions that a list has to meet before any of its operands is evaluated. -/
inductive Precondition where
  | room
  | head
  | name
  | arity
  | literal
deriving DecidableEq, Repr

namespace Precondition

/-- The conditions in the order in which they are checked. -/
def order : List Precondition := [.room, .head, .name, .arity, .literal]

/-- The error for a list that violates the condition, whichever others it violates. A
condition on what is missing in the list is not violated. -/
def violation (limit depth : Nat) (items : List Expr) : Precondition → Option EvalError
  | .room => if depth < limit then none else some (.depthExceeded limit)
  | .head =>
      match items with
      | [] => some (.malformed .emptyList)
      | first :: _ => if first.str?.isSome then none else some (.malformed (.head first))
  | .name =>
      (items.head?.bind Expr.str?).bind fun name =>
        if (Operation.ofName? name).isSome then none else some (.unknownOperation name)
  | .arity =>
      (Expr.operation? items).bind fun operation =>
        if operation.arity.accepts items.tail.length then none
        else some (.arity operation.name operation.arity items.tail.length)
  | .literal =>
      (Expr.operation? items).bind fun operation =>
        operation.literal?.bind fun expected =>
          items.tail.head?.bind fun operand =>
            if expected.admits operand then none
            else some (.expectedLiteral operation 0 expected operand)

/-- The error of the first condition that a list violates, if it violates any. -/
def firstViolation (limit depth : Nat) (items : List Expr) : Option EvalError :=
  order.findSome? (violation limit depth items)

variable {limit depth : Nat}

/-- Where the limit is reached, this is the first violation, whatever the list. -/
theorem firstViolation_of_full (full : ¬ depth < limit) (items : List Expr) :
    firstViolation limit depth items = some (.depthExceeded limit) := by
  simp [firstViolation, order, violation, full]

/-- Of an empty list it is said next that it has no head. -/
theorem firstViolation_nil (room : depth < limit) :
    firstViolation limit depth [] = some (.malformed .emptyList) := by
  rw [firstViolation, order, List.findSome?_cons, violation, if_pos room]
  rfl

/-- Of a head that is no string it is said next that it is none. -/
theorem firstViolation_of_noName (room : depth < limit) {first : Expr}
    (noName : first.str? = none) (operands : List Expr) :
    firstViolation limit depth (first :: operands) = some (.malformed (.head first)) := by
  simp [firstViolation, order, violation, room, noName]

/-- Of a string that names no operation it is said next that it names none. -/
theorem firstViolation_of_unknown (room : depth < limit) {name : String}
    (unknown : Operation.ofName? name = none) (operands : List Expr) :
    firstViolation limit depth (.str name :: operands) = some (.unknownOperation name) := by
  simp [firstViolation, order, violation, room, Expr.str?, unknown]

/-- Of a number of operands that the operation refuses this is said next. -/
theorem firstViolation_of_refused (room : depth < limit) {operation : Operation}
    {operands : List Expr} (refused : operation.arity.accepts operands.length = false) :
    firstViolation limit depth (.str operation.name :: operands) =
      some (.arity operation.name operation.arity operands.length) := by
  simp [firstViolation, order, violation, room, Expr.operation?, Expr.str?, refused]

/-- A list whose operation takes so many operands violates no condition but on a literal. -/
theorem firstViolation_of_accepted (room : depth < limit) {operation : Operation}
    {operands : List Expr} (accepted : operation.arity.accepts operands.length = true) :
    firstViolation limit depth (.str operation.name :: operands) =
      violation limit depth (.str operation.name :: operands) .literal := by
  simp [firstViolation, order, violation, room, Expr.operation?, Expr.str?, accepted]

/-- What is wrong with a list that violates the condition on literals. -/
theorem wrong_literal_of_violation {operation : Operation} {operands : List Expr}
    {error : EvalError}
    (violated : violation limit depth (.str operation.name :: operands) .literal = some error) :
    ∃ expected target following, operands = target :: following ∧
      operation.literal? = some expected ∧ expected.admits target = false ∧
        error = .expectedLiteral operation 0 expected target := by
  have named : Expr.operation? (.str operation.name :: operands) = some operation := by
    simp [Expr.operation?, Expr.str?]
  rw [violation, named, Option.bind_some] at violated
  obtain ⟨expected, literal, wrong⟩ := Option.bind_eq_some_iff.mp violated
  obtain ⟨target, first, refused⟩ := Option.bind_eq_some_iff.mp wrong
  obtain ⟨following, rfl⟩ := List.head?_eq_some_iff.mp first
  cases admitted : expected.admits target with
  | false =>
      rw [admitted] at refused
      cases refused
      exact ⟨expected, target, following, rfl, literal, admitted, rfl⟩
  | true =>
      rw [admitted] at refused
      cases refused

end Precondition

/-- An operation whose first operand is not the literal that it takes fails with this,
whatever its operands do. -/
theorem Operation.apply_of_not_admitted (machine : Machine) {operation : Operation}
    {expected : Literal} (literal : operation.literal? = some expected) {target : Operand}
    {following : List Operand} (refused : expected.admits target.expr = false)
    (accepted : operation.arity.accepts (following.length + 1) = true) :
    operation.apply machine (target :: following) =
      some (Action.fail (.expectedLiteral operation 0 expected target.expr)) := by
  cases operation with
  | get =>
      cases literal
      obtain rfl : following = [] := by simpa [arity, Arity.accepts] using accepted
      have noName : target.expr.str? = none := by simpa [Literal.admits] using refused
      simp only [apply, Operand.variableName_eq, noName]
      rfl
  | array =>
      cases literal
      obtain rfl : following = [] := by simpa [arity, Arity.accepts] using accepted
      have noCount : target.expr.count? = none := by simpa [Literal.admits] using refused
      simp only [apply, Operand.count_eq, noCount]
      rfl
  | set =>
      cases literal
      obtain ⟨operand, rfl⟩ : ∃ operand, following = [operand] := by
        simpa [arity, Arity.accepts, List.length_eq_one_iff] using accepted
      have noName : target.expr.str? = none := by simpa [Literal.admits] using refused
      simp only [apply, Operand.variableName_eq, noName]
      rfl
  | repeatTimes =>
      cases literal
      obtain ⟨operand, rfl⟩ : ∃ operand, following = [operand] := by
        simpa [arity, Arity.accepts, List.length_eq_one_iff] using accepted
      have noCount : target.expr.count? = none := by simpa [Literal.admits] using refused
      simp only [apply, Operand.count_eq, noCount]
      rfl
  | abs | add | equal | geq | ifThen | leq | print | seq | whileTrue => cases literal

namespace Machine

variable {arithmetic : Arithmetic} {memory : Memory} {limit : Nat} {items : List Expr}
  {state : State} {error : EvalError}

/-- A list is refused in a state with an error: whatever machine performs it with whatever
actions in the place of its elements, it ends with this error, and what is reported is
all that changes. -/
def Refuses (limit : Nat) (items : List Expr) (state : State) (error : EvalError) : Prop :=
  ∃ reported, ∀ (machine : Machine) (operands : List Operand), machine.limit = limit →
    operands.map Operand.expr = items →
      Action.nested limit (machine.perform operands) state =
        some ⟨.error error, state.reporting reported⟩

/-- A list that fails as soon as it is opened is refused. -/
theorem refuses_of_fail (room : state.depth < limit)
    (fails : ∀ (machine : Machine) (operands : List Operand),
      operands.map Operand.expr = items → machine.perform operands = Action.fail error) :
    Refuses limit items state error := by
  refine ⟨state.events, fun machine operands _ written => ?_⟩
  rw [fails machine operands written, Action.nested, if_pos room]
  rfl

/-- A first operand that should be a literal of another kind is refused unevaluated. -/
theorem refuses_of_wrong_literal (room : state.depth < limit) {operation : Operation}
    {expected : Literal} (literal : operation.literal? = some expected) {target : Expr}
    {following : List Expr} (refused : expected.admits target = false)
    (accepted : operation.arity.accepts (following.length + 1) = true) :
    Refuses limit (.str operation.name :: target :: following) state
      (.expectedLiteral operation 0 expected target) := by
  refine ⟨(state.opened operation).events, fun machine operands _ written => ?_⟩
  obtain ⟨⟨_, run⟩, others, rfl, rfl, writtenToo⟩ := List.map_eq_cons_iff.mp written
  obtain ⟨operand, following, rfl, rfl, rfl⟩ := List.map_eq_cons_iff.mp writtenToo
  rw [List.length_map] at accepted
  rw [perform_of_applied (operation.apply_of_not_admitted machine literal refused accepted) run,
    Action.nested_announce room]
  rfl

/-- A list is refused with the first condition that it violates, or it violates none and
names an operation that accepts so many operands. -/
theorem refused_or_accepted (limit : Nat) (items : List Expr) (state : State) :
    (∃ error, Precondition.firstViolation limit state.depth items = some error ∧
      Refuses limit items state error) ∨
    Precondition.firstViolation limit state.depth items = none ∧ state.depth < limit ∧
      ∃ (operation : Operation) (written : List Expr), items = .str operation.name :: written ∧
        operation.arity.accepts written.length = true := by
  by_cases room : state.depth < limit
  case neg =>
    exact .inl ⟨_, Precondition.firstViolation_of_full room items, state.events,
      fun _ _ _ _ => Action.nested_of_le _ (Nat.not_lt.mp room)⟩
  rcases items with _ | ⟨first, following⟩
  · refine .inl ⟨_, Precondition.firstViolation_nil room, refuses_of_fail room ?_⟩
    intro machine operands written
    obtain rfl := List.map_eq_nil_iff.mp written
    rfl
  cases named : first.str? with
  | none =>
      refine .inl ⟨_, Precondition.firstViolation_of_noName room named following,
        refuses_of_fail room ?_⟩
      intro machine operands written
      obtain ⟨⟨first, _⟩, others, rfl, rfl, rfl⟩ := List.map_eq_cons_iff.mp written
      cases first with
      | str => cases named
      | int | bool | list => rfl
  | some name =>
      obtain rfl := Expr.eq_str_of_str? named
      cases found : Operation.ofName? name with
      | none =>
          refine .inl ⟨_, Precondition.firstViolation_of_unknown room found following,
            refuses_of_fail room ?_⟩
          intro machine operands written
          obtain ⟨⟨_, run⟩, others, rfl, rfl, rfl⟩ := List.map_eq_cons_iff.mp written
          simp only [perform, found]
      | some operation =>
          obtain rfl := Operation.name_of_ofName? found
          cases accepted : operation.arity.accepts following.length with
          | false =>
              refine .inl ⟨_, Precondition.firstViolation_of_refused room accepted,
                refuses_of_fail room ?_⟩
              intro machine operands written
              obtain ⟨⟨_, run⟩, others, rfl, rfl, rfl⟩ := List.map_eq_cons_iff.mp written
              rw [List.length_map] at accepted ⊢
              refine perform_of_refused ?_ run
              rw [← Option.not_isSome_iff_eq_none, Operation.apply_isSome_iff, accepted]
              exact Bool.false_ne_true
          | true =>
              have first := Precondition.firstViolation_of_accepted room accepted
              cases violated : Precondition.violation limit state.depth
                (.str operation.name :: following) .literal with
              | none => exact .inr ⟨first.trans violated, room, operation, following, rfl, accepted⟩
              | some error =>
                  obtain ⟨expected, target, following, rfl, literal, refused, rfl⟩ :=
                    Precondition.wrong_literal_of_violation violated
                  exact .inl ⟨_, first.trans violated,
                    refuses_of_wrong_literal room literal refused accepted⟩

/-- A list that violates a condition is refused with the error of the first one. -/
theorem refuses_of_violation
    (violated : Precondition.firstViolation limit state.depth items = some error) :
    Refuses limit items state error := by
  obtain ⟨_, same, refuses⟩ | ⟨met, _⟩ := refused_or_accepted limit items state
  · rw [violated] at same
    cases same
    exact refuses
  · rw [violated] at met
    cases met

/-- An evaluation of a list that is refused ends with the error, and only events are added. -/
theorem Refuses.ends (refuses : Refuses limit items state error) (arithmetic : Arithmetic)
    (memory : Memory) :
    ∃ reported, Ends arithmetic memory limit (.list items) state
      ⟨.error error, state.reporting reported⟩ := by
  obtain ⟨reported, refused⟩ := refuses
  refine ⟨reported, 0, ?_⟩
  rw [evaluate_list, ← operandsUntil_never]
  exact refused ⟨arithmetic, memory, limit, 0⟩ _ rfl (map_expr_operandsUntil _ _ items)

/-- The evaluation of a list that is refused comes to no expression but the list itself. -/
theorem Refuses.visits (refuses : Refuses limit items state error) {part : Expr} {there : State}
    (visits : Visits arithmetic memory limit (.list items) state part there) :
    part = .list items ∧ there = state := by
  obtain ⟨reported, refused⟩ := refuses
  by_contra elsewhere
  have apart : ¬ (.list items = part ∧ state = there) := fun ⟨same, sameState⟩ =>
    elsewhere ⟨same.symm, sameState.symm⟩
  refine visits.not_unchanged fun passes error => ?_
  rw [evaluateUntil_list, Action.stopping_of_none (breakpoints_of_not_mem apart error),
    evaluate_list, ← operandsUntil_never, refused _ _ rfl (map_expr_operandsUntil _ _ items),
    refused _ _ rfl (map_expr_operandsUntil _ _ items)]

/-- A list that violates no condition is opened, and its operation takes its operands. -/
theorem dispatched_of_met (met : Precondition.firstViolation limit state.depth items = none) :
    ∃ (operation : Operation) (written : List Expr), items = .str operation.name :: written ∧
      ∀ arithmetic memory passes, ∃ action : Action Value,
        operation.apply ⟨arithmetic, memory, limit, passes⟩
          (operands ⟨arithmetic, memory, limit, passes⟩ written) = some action ∧
        (⟨arithmetic, memory, limit, passes⟩ : Machine).evaluate (.list items) state =
          (action (state.opened operation)).map Ending.closed := by
  obtain ⟨_, violated, _⟩ | ⟨_, room, operation, written, rfl, accepted⟩ :=
    refused_or_accepted limit items state
  · rw [met] at violated
    cases violated
  · refine ⟨operation, written, rfl, fun arithmetic memory passes => ?_⟩
    have applies := operation.apply_isSome_iff ⟨arithmetic, memory, limit, passes⟩
      (operands ⟨arithmetic, memory, limit, passes⟩ written)
    rw [operands_eq_map, List.length_map, accepted] at applies
    obtain ⟨action, applied⟩ := Option.isSome_iff_exists.mp (applies.mpr rfl)
    rw [← operands_eq_map] at applied
    refine ⟨action, applied, ?_⟩
    rw [← Expr.form, evaluate_form applied, Action.nested_announce room]

/-- An array that memory does not reserve is an error, and reporting the operation is all
that changes. -/
theorem ends_array_of_full (room : state.depth < limit) {operand : Expr} {count : Nat}
    (counted : operand.count? = some count) (full : memory.reserves count = false) :
    Ends arithmetic memory limit (.form Operation.array.name [operand]) state
      ⟨.error (.allocation .array count), state.reporting (state.opened .array).events⟩ := by
  have applied : Operation.array.apply ⟨arithmetic, memory, limit, 0⟩
      (operands ⟨arithmetic, memory, limit, 0⟩ [operand]) =
        some (Operation.allocate memory count) := by
    simp only [operands, Operation.apply, Operand.count_eq, counted]
    rfl
  refine ⟨0, ?_⟩
  rw [evaluate_form applied, Action.nested_announce room, Operation.allocate, full]
  rfl

/-- A list that violates conditions is refused with the first of the violations: it ends
with this error whatever its operands would do, none of them is evaluated, and reporting
is all that changes. A list that violates none is opened and its operation takes its
operands. A variable that is not bound and an array that is not reserved, whatever the
memory, change no more than this either. -/
theorem preconditions_come_first (arithmetic : Arithmetic) (memory : Memory) (limit : Nat)
    (state : State) :
    (∀ items error, Precondition.firstViolation limit state.depth items = some error →
      Refuses limit items state error ∧
      (∃ reported, Ends arithmetic memory limit (.list items) state
        ⟨.error error, state.reporting reported⟩) ∧
      ∀ part there, Visits arithmetic memory limit (.list items) state part there →
        part = .list items ∧ there = state) ∧
    (∀ items, Precondition.firstViolation limit state.depth items = none →
      ∃ (operation : Operation) (written : List Expr), items = .str operation.name :: written ∧
        ∀ passes, ∃ action : Action Value,
          operation.apply ⟨arithmetic, memory, limit, passes⟩
            (operands ⟨arithmetic, memory, limit, passes⟩ written) = some action ∧
          (⟨arithmetic, memory, limit, passes⟩ : Machine).evaluate (.list items) state =
            (action (state.opened operation)).map Ending.closed) ∧
    (∀ name, state.depth < limit → state.environment.get? name = none →
      ∃ reported, Ends arithmetic memory limit (.form Operation.get.name [.str name]) state
        ⟨.error (.undefinedVariable name), state.reporting reported⟩) ∧
    ∀ operand count, state.depth < limit → operand.count? = some count →
      memory.reserves count = false →
        ∃ reported, Ends arithmetic memory limit (.form Operation.array.name [operand]) state
          ⟨.error (.allocation .array count), state.reporting reported⟩ := by
  refine ⟨fun items error violated => ?_, fun items met => ?_, fun name room unbound => ?_,
    fun operand count room counted full => ⟨_, ends_array_of_full room counted full⟩⟩
  · have refuses := refuses_of_violation violated
    exact ⟨refuses, refuses.ends arithmetic memory, fun part there => refuses.visits⟩
  · obtain ⟨operation, written, same, dispatched⟩ := dispatched_of_met met
    exact ⟨operation, written, same, dispatched arithmetic memory⟩
  · have ends : Ends arithmetic memory limit (.form Operation.get.name [.str name]) state _ :=
      ends_get room name
    rw [unbound] at ends
    exact ⟨_, ends⟩

/-- A repetition whose count is a form that would print and whose body would loop forever.
The count is blamed; with a third operand the number of operands is, and without room
for the form the limit is. An unbound variable and an array that is not reserved are met
where no condition is violated. -/
theorem preconditions_come_first_several :
    let printing := Expr.form "print" [.str "a"]
    let items := [Expr.str "repeat", printing, .form "while" [.bool true, .int 1]]
    let state : State := ⟨.empty, .unlimited, #[], 1⟩
    let wrongCount := EvalError.expectedLiteral .repeatTimes 0 .count printing
    let wrongArity := EvalError.arity "repeat" (.exactly 2) 3
    (Precondition.firstViolation 2 1 items = some wrongCount ∧
      (∃ reported, Ends .word64 (.below 16) 2 (.list items) state
        ⟨.error wrongCount, state.reporting reported⟩) ∧
      ∀ part there, Visits .word64 (.below 16) 2 (.list items) state part there →
        part = .list items ∧ there = state) ∧
    (Precondition.violation 2 1 (items ++ [printing]) .literal = some wrongCount ∧
      Precondition.firstViolation 2 1 (items ++ [printing]) = some wrongArity ∧
      ∃ reported, Ends .word64 (.below 16) 2 (.list (items ++ [printing])) state
        ⟨.error wrongArity, state.reporting reported⟩) ∧
    (Precondition.firstViolation 1 1 (items ++ [printing]) = some (.depthExceeded 1) ∧
      ∃ reported, Ends .word64 (.below 16) 1 (.list (items ++ [printing])) state
        ⟨.error (.depthExceeded 1), state.reporting reported⟩) ∧
    (Precondition.firstViolation 2 1 [.str "get", .str "x"] = none ∧
      ∃ reported, Ends .word64 (.below 16) 2 (.form "get" [.str "x"]) state
        ⟨.error (.undefinedVariable "x"), state.reporting reported⟩) ∧
    (Precondition.firstViolation 2 1 [.str "array", .int 9223372036854775807] = none ∧
      ∃ reported, Ends .word64 (.below 16) 2 (.form "array" [.int 9223372036854775807]) state
        ⟨.error (.allocation .array 9223372036854775807), state.reporting reported⟩) := by
  intro printing items state wrongCount wrongArity
  obtain ⟨refused, _, unbound, full⟩ := preconditions_come_first .word64 (.below 16) 2 state
  have count : Precondition.firstViolation 2 1 items = some wrongCount := rfl
  have arity : Precondition.firstViolation 2 1 (items ++ [printing]) = some wrongArity := rfl
  have depth : Precondition.firstViolation 1 1 (items ++ [printing]) =
      some (.depthExceeded 1) := rfl
  have large : (Expr.int 9223372036854775807).count? = some 9223372036854775807 := by decide
  have cut := ((preconditions_come_first .word64 (.below 16) 1 state).1 _ _ depth).2.1
  exact ⟨⟨count, (refused _ _ count).2⟩, ⟨rfl, arity, (refused _ _ arity).2.1⟩, ⟨depth, cut⟩,
    ⟨rfl, unbound "x" (by decide) rfl⟩, ⟨rfl, full _ _ (by decide) large rfl⟩⟩

end Machine

end JsonForms
