import JsonForms.Proofs.Evaluation.Passes

/-!
# Breakpoints

An evaluation is a function from a state to an ending, so what it goes through
on the way cannot be read off it. Breakpoints make that visible: `evaluateUntil`
is the evaluation that fails with an error of our choice as soon as it comes to
evaluate an expression in a state that has a breakpoint. An evaluation reaches a
point when it fails with every error that we may put there. This needs no ending
of the evaluation itself, and it uses the same actions as the evaluation does.
-/

namespace JsonForms

/-- The action that fails at once in a state for which there is an error. -/
def Action.stopping {α : Type} (stop : State → Option EvalError) (action : Action α) :
    Action α :=
  fun state =>
    match stop state with
    | some error => some ⟨.error error, state⟩
    | none => action state

namespace Action

/-- Where there is a reason to stop, the action is not run. -/
theorem stopping_of_some {α : Type} {stop : State → Option EvalError} {state : State}
    {error : EvalError} (found : stop state = some error) (action : Action α) :
    action.stopping stop state = some ⟨.error error, state⟩ := by
  simp only [stopping, found]

/-- Where there is no reason to stop, the action is run as it is. -/
theorem stopping_of_none {α : Type} {stop : State → Option EvalError} {state : State}
    (found : stop state = none) (action : Action α) :
    action.stopping stop state = action state := by
  simp only [stopping, found]

end Action

namespace Machine

mutual

/-- The evaluation of an expression that fails as soon as it comes to evaluate a
part in a state for which there is an error. -/
def evaluateUntil (machine : Machine) (stop : Expr → State → Option EvalError) (expr : Expr) :
    Action Value :=
  Action.stopping (stop expr) fun state =>
    match expr with
    | .int value => some ⟨.ok (.int value.toInt), state⟩
    | .str text => some ⟨.ok (.str text), state⟩
    | .bool value => some ⟨.ok (.bool value), state⟩
    | .list items =>
        Action.nested machine.limit (machine.perform (machine.operandsUntil stop items)) state

/-- Expressions as operands whose evaluations fail at breakpoints. -/
def operandsUntil (machine : Machine) (stop : Expr → State → Option EvalError) :
    List Expr → List Operand
  | [] => []
  | expr :: following =>
      ⟨expr, machine.evaluateUntil stop expr⟩ :: machine.operandsUntil stop following

end

/-- A literal integer is a place to stop at, like every expression. -/
theorem evaluateUntil_int (machine : Machine) (stop : Expr → State → Option EvalError)
    (value : Int64) :
    machine.evaluateUntil stop (.int value) =
      Action.stopping (stop (.int value)) (Action.pure (.int value.toInt)) := by
  rw [evaluateUntil]
  rfl

/-- A literal string is a place to stop at, like every expression. -/
theorem evaluateUntil_str (machine : Machine) (stop : Expr → State → Option EvalError)
    (text : String) :
    machine.evaluateUntil stop (.str text) =
      Action.stopping (stop (.str text)) (Action.pure (.str text)) := by
  rw [evaluateUntil]
  rfl

/-- A truth value is a place to stop at, like every expression. -/
theorem evaluateUntil_bool (machine : Machine) (stop : Expr → State → Option EvalError)
    (value : Bool) :
    machine.evaluateUntil stop (.bool value) =
      Action.stopping (stop (.bool value)) (Action.pure (.bool value)) := by
  rw [evaluateUntil]
  rfl

/-- A list is a place to stop at before it is opened, and its operands are evaluated with the same
places. -/
theorem evaluateUntil_list (machine : Machine) (stop : Expr → State → Option EvalError)
    (items : List Expr) :
    machine.evaluateUntil stop (.list items) =
      Action.stopping (stop (.list items))
        (Action.nested machine.limit (machine.perform (machine.operandsUntil stop items))) := by
  rw [evaluateUntil]

/-- The operands of a list are its elements with their stopping evaluations, in order. -/
theorem operandsUntil_eq_map (machine : Machine) (stop : Expr → State → Option EvalError)
    (items : List Expr) :
    machine.operandsUntil stop items =
      items.map fun expr => ⟨expr, machine.evaluateUntil stop expr⟩ := by
  induction items with
  | nil => rw [operandsUntil, List.map_nil]
  | cons expr following inductionHypothesis =>
      rw [operandsUntil, inductionHypothesis, List.map_cons]

/-- Operands are as they are without breakpoints when their evaluations are. -/
theorem operandsUntil_eq_operands {machine : Machine} {stop : Expr → State → Option EvalError}
    {items : List Expr}
    (same : ∀ item ∈ items, machine.evaluateUntil stop item = machine.evaluate item) :
    machine.operandsUntil stop items = machine.operands items := by
  rw [operandsUntil_eq_map, operands_eq_map]
  exact List.map_congr_left fun item member => by rw [same item member]

/-- Breakpoints that are nowhere in an expression do not change its evaluation. -/
theorem evaluateUntil_eq_evaluate {machine : Machine} {stop : Expr → State → Option EvalError}
    {expr : Expr} (free : ∀ part, expr.Contains part → stop part = fun _ => none) :
    machine.evaluateUntil stop expr = machine.evaluate expr := by
  induction expr using Expr.induct with
  | int value => funext state; rw [evaluateUntil_int, evaluate, free _ (.self _)]; rfl
  | str text => funext state; rw [evaluateUntil_str, evaluate, free _ (.self _)]; rfl
  | bool value => funext state; rw [evaluateUntil_bool, evaluate, free _ (.self _)]; rfl
  | list items inductionHypothesis =>
      have operands := @operandsUntil_eq_operands machine stop items fun item member =>
        inductionHypothesis item member fun part inside => free part (.inside member inside)
      rw [evaluateUntil_list, evaluate_list, free _ (.self _), operands]
      rfl

/-- Without breakpoints, evaluations are as they are. -/
theorem evaluateUntil_never (machine : Machine) (expr : Expr) :
    machine.evaluateUntil (fun _ _ => none) expr = machine.evaluate expr :=
  evaluateUntil_eq_evaluate fun _ _ => rfl

/-- Without places to stop at, operands are evaluated as ever. -/
theorem operandsUntil_never (machine : Machine) (items : List Expr) :
    machine.operandsUntil (fun _ _ => none) items = machine.operands items :=
  operandsUntil_eq_operands fun item _ => machine.evaluateUntil_never item

/-- Stopping leaves operands as they are written. -/
theorem map_expr_operandsUntil (machine : Machine) (stop : Expr → State → Option EvalError)
    (items : List Expr) : (machine.operandsUntil stop items).map Operand.expr = items := by
  rw [operandsUntil_eq_map, List.map_map]
  exact List.map_id items

/-- Elements whose evaluations are related are alike as operands. -/
theorem operandsUntil_alike {left right : Machine} {stop other : Expr → State → Option EvalError}
    {Related : Action Value → Action Value → Prop} {items : List Expr}
    (related : ∀ item ∈ items, Related (left.evaluateUntil stop item)
      (right.evaluateUntil other item)) :
    List.Forall₂ (Operand.Alike Related) (left.operandsUntil stop items)
      (right.operandsUntil other items) := by
  rw [operandsUntil_eq_map, operandsUntil_eq_map, List.forall₂_map_left_iff,
    List.forall₂_map_right_iff, List.forall₂_same]
  exact fun item member => ⟨rfl, related item member⟩

/-- The evaluation of a program with breakpoints ends so, with enough passes for
its loops. -/
def EndsUntil (arithmetic : Arithmetic) (memory : Memory) (limit : Nat)
    (stop : Expr → State → Option EvalError) (program : Expr) (state : State)
    (ending : Ending Value) : Prop :=
  ∃ passes,
    (⟨arithmetic, memory, limit, passes⟩ : Machine).evaluateUntil stop program state = some ending

open Classical in
/-- Breakpoints at all of some points, with one error. -/
noncomputable def breakpoints (points : Expr → State → Prop) (error : EvalError) :
    Expr → State → Option EvalError :=
  fun expr state => if points expr state then some error else none

/-- The evaluation of a program comes to one of some points: whatever error we
put there, the evaluation fails with it. -/
def Reaches (arithmetic : Arithmetic) (memory : Memory) (limit : Nat) (program : Expr)
    (state : State) (points : Expr → State → Prop) : Prop :=
  ∃ passes, ∀ error, ∃ final,
    (⟨arithmetic, memory, limit, passes⟩ : Machine).evaluateUntil
      (breakpoints points error) program state =
      some ⟨.error error, final⟩

/-- The evaluation of a program comes to evaluate a part of it in a state. -/
def Visits (arithmetic : Arithmetic) (memory : Memory) (limit : Nat) (program : Expr)
    (state : State) (part : Expr) (reached : State) : Prop :=
  Reaches arithmetic memory limit program state fun expr there => expr = part ∧ there = reached

/-- An evaluation comes to its program in the state at its start. -/
theorem reaches_start {arithmetic : Arithmetic} {memory : Memory} {limit : Nat} {program : Expr}
    {state : State} {points : Expr → State → Prop} (there : points program state) :
    Reaches arithmetic memory limit program state points := by
  refine ⟨0, fun error => ⟨state, ?_⟩⟩
  rw [evaluateUntil]
  exact Action.stopping_of_some (if_pos there) _

/-- At a point there is a reason to stop. -/
theorem breakpoints_of_mem {points : Expr → State → Prop} {expr : Expr} {state : State}
    (there : points expr state) (error : EvalError) :
    breakpoints points error expr state = some error := if_pos there

/-- Elsewhere there is no reason to stop. -/
theorem breakpoints_of_not_mem {points : Expr → State → Prop} {expr : Expr} {state : State}
    (elsewhere : ¬ points expr state) (error : EvalError) :
    breakpoints points error expr state = none := if_neg elsewhere

/-- Breakpoints that an evaluation comes to change it. Without them it would have
to end with two errors. -/
theorem Reaches.not_unchanged {arithmetic : Arithmetic} {memory : Memory} {limit : Nat}
    {program : Expr} {state : State} {points : Expr → State → Prop}
    (reaches : Reaches arithmetic memory limit program state points) :
    ¬ ∀ passes error,
      (⟨arithmetic, memory, limit, passes⟩ : Machine).evaluateUntil
          (breakpoints points error) program state =
        (⟨arithmetic, memory, limit, passes⟩ : Machine).evaluate program state := by
  intro unchanged
  obtain ⟨passes, stops⟩ := reaches
  obtain ⟨_, first⟩ := stops (.unknownOperation "")
  obtain ⟨_, second⟩ := stops (.undefinedVariable "")
  rw [unchanged] at first second
  rw [first] at second
  cases second

end Machine

/-- A relation that respects what the lists of a program do, and that lasts when
they are opened and where evaluations are stopped, holds between the evaluations
of the program. -/
theorem Sequenced.evaluateUntil {left right : Machine} {Admits : Value → Prop}
    {Related : {α : Type} → (α → Prop) → Action α → Action α → Prop}
    (sequenced : Sequenced Admits Related) {stop other : Expr → State → Option EvalError}
    {program : Expr}
    (congruent : ∀ items, program.Contains (.list items) →
      CongruentAt left right (.list items) Admits Related)
    (announced : ∀ operation, Related (fun _ => True) (Action.announce operation)
      (Action.announce operation))
    (nested : ∀ {inner others : Action Value}, Related Admits inner others →
      Related Admits (Action.nested left.limit inner) (Action.nested right.limit others))
    (stopped : ∀ {part} {first second : Action Value}, program.Contains part →
      Related Admits first second →
        Related Admits (first.stopping (stop part)) (second.stopping (other part))) :
    Related Admits (left.evaluateUntil stop program) (right.evaluateUntil other program) := by
  induction program using Expr.induct with
  | int value =>
      rw [Machine.evaluateUntil_int, Machine.evaluateUntil_int]
      exact stopped (.self _) (sequenced.pure (sequenced.int value))
  | str text =>
      rw [Machine.evaluateUntil_str, Machine.evaluateUntil_str]
      exact stopped (.self _) (sequenced.pure (sequenced.str text))
  | bool value =>
      rw [Machine.evaluateUntil_bool, Machine.evaluateUntil_bool]
      exact stopped (.self _) (sequenced.pure (sequenced.bool value))
  | list items inductionHypothesis =>
      have alike := Machine.operandsUntil_alike fun item member =>
        inductionHypothesis item member (fun items part => congruent items (.inside member part))
          fun part => stopped (.inside member part)
      have opened := congruent items (.self _)
      rw [← left.map_expr_operandsUntil stop items] at opened
      rw [Machine.evaluateUntil_list, Machine.evaluateUntil_list]
      exact stopped (.self _) (nested (opened.perform announced alike))

/-- The same for evaluations without breakpoints. -/
theorem Sequenced.evaluate {left right : Machine} {Admits : Value → Prop}
    {Related : {α : Type} → (α → Prop) → Action α → Action α → Prop}
    (sequenced : Sequenced Admits Related) {program : Expr}
    (congruent : ∀ items, program.Contains (.list items) →
      CongruentAt left right (.list items) Admits Related)
    (announced : ∀ operation, Related (fun _ => True) (Action.announce operation)
      (Action.announce operation))
    (nested : ∀ {inner others : Action Value}, Related Admits inner others →
      Related Admits (Action.nested left.limit inner) (Action.nested right.limit others)) :
    Related Admits (left.evaluate program) (right.evaluate program) := by
  have related := @Sequenced.evaluateUntil left right Admits Related sequenced (fun _ _ => none)
    (fun _ _ => none) program congruent announced nested fun _ related => related
  rw [Machine.evaluateUntil_never, Machine.evaluateUntil_never] at related
  exact related

end JsonForms
