import JsonForms.Proofs.Evaluation.Breakpoints

/-!
# Steps of an evaluation

`State.Step` says once what an evaluation can do to a state: open a form and
report its operation, close it again, set a variable and report it, or write.
Whatever these steps preserve holds wherever an evaluation comes to and in
whatever state it ends. Steps are taken relative to a number of forms that stay
open, so that a condition can tell what happens inside a form from the form.
-/

namespace JsonForms

namespace State

/-- The state in which an operation runs: its form is open and it is reported. -/
def opened (state : State) (operation : Operation) : State :=
  { state with
    events := state.events.push (.dispatch operation (state.depth + 1))
    depth := state.depth + 1 }

/-- The state after a variable is set. -/
def assigned (state : State) (name : String) (value : Value) : State :=
  { state with
    events := state.events.push (.set name value)
    environment := state.environment.set name value }

/-- The state with so many open forms. -/
def withDepth (state : State) (depth : Nat) : State := { state with depth := depth }

/-- A step of an evaluation while `base` forms stay open. -/
inductive Step (base limit : Nat) : State → State → Prop where
  | opened {state : State} (operation : Operation) (room : state.depth < limit) :
      Step base limit state (state.opened operation)
  | closed {state : State} (inside : base < state.depth) :
      Step base limit state (state.withDepth (state.depth - 1))
  | assigned {state : State} (name : String) (value : Value) :
      Step base limit state (state.assigned name value)
  | wrote {state : State} (bytes : ByteArray) :
      Step base limit state { state with sink := (state.sink.write bytes).2 }

/-- No step closes one of the forms that stay open. -/
theorem Step.base_le {base limit : Nat} {state next : State} (step : Step base limit state next)
    (above : base ≤ state.depth) : base ≤ next.depth := by
  cases step with
  | opened => exact Nat.le_succ_of_le above
  | closed inside => exact Nat.le_sub_one_of_lt inside
  | assigned | wrote => exact above

/-- A condition on states in which `base` forms are open that every step keeps. -/
structure Invariant (base limit : Nat) (Holds : State → Prop) : Prop where
  above : ∀ {state}, Holds state → base ≤ state.depth
  step : ∀ {state next}, Holds state → Step base limit state next → Holds next

end State

/-- The ending of a form, given the ending of what is inside it. -/
def Ending.closed {α : Type} (ending : Ending α) : Ending α :=
  ⟨ending.result, ending.state.withDepth (ending.state.depth - 1)⟩

namespace Action

/-- From states of a condition, the second action does what the first one does,
and the condition lasts. Forms that are opened are closed again. -/
def Keeps (Holds : State → Prop) {α : Type} (plain other : Action α) : Prop :=
  ∀ state, Holds state → other state = plain state ∧
    ∀ ending, plain state = some ending → Holds ending.state ∧ ending.state.depth = state.depth

variable {Holds : State → Prop}

/-- A result keeps every condition. -/
theorem keeps_ofExcept {α : Type} (result : Except EvalError α) :
    Keeps Holds (ofExcept result) (ofExcept result) := by
  intro state holds
  refine ⟨rfl, fun ending ended => ?_⟩
  cases ended
  exact ⟨holds, rfl⟩

/-- Two sequences do the same when their first actions do and they go on alike, and
what holds of every ending of both parts holds of every ending. -/
theorem bind_same {α β : Type} {first second : Action α} {next after : α → Action β}
    {state : State} {Allowed : Ending β → Prop} (same : second state = first state)
    (failed : ∀ error middle, first state = some ⟨.error error, middle⟩ →
      Allowed ⟨.error error, middle⟩)
    (goesOn : ∀ value middle, first state = some ⟨.ok value, middle⟩ →
      after value middle = next value middle ∧
        ∀ ending, next value middle = some ending → Allowed ending) :
    second.bind after state = first.bind next state ∧
      ∀ ending, first.bind next state = some ending → Allowed ending := by
  rcases found : first state with _ | ⟨error | value, middle⟩
  all_goals rw [found] at same
  · rw [bind_of_none found, bind_of_none same]
    exact ⟨rfl, fun _ ended => nomatch ended⟩
  · rw [bind_of_error found, bind_of_error same]
    refine ⟨rfl, fun ending ended => ?_⟩
    cases ended
    exact failed error middle found
  · rw [bind_of_ok found, bind_of_ok same]
    exact goesOn value middle found

/-- Two actions that keep a condition keep it one after the other. -/
theorem Keeps.bind {α β : Type} {first second : Action α} {next after : α → Action β}
    (keeps : Keeps Holds first second)
    (keepsNext : ∀ value, Keeps Holds (next value) (after value)) :
    Keeps Holds (first.bind next) (second.bind after) := by
  intro state holds
  obtain ⟨same, ends⟩ := keeps _ holds
  refine bind_same same (fun error middle found => ends _ found) fun value middle found => ?_
  obtain ⟨between, level⟩ := ends _ found
  obtain ⟨sameNext, endsNext⟩ := keepsNext value _ between
  refine ⟨sameNext, fun ending ended => ?_⟩
  obtain ⟨after, finalLevel⟩ := endsNext _ ended
  exact ⟨after, finalLevel.trans level⟩

/-- Keeping a condition is kept by sequencing. -/
theorem keeps_sequential : Sequential (Keeps Holds) where
  pure value := keeps_ofExcept (.ok value)
  bind := Keeps.bind

/-- An action that does not end keeps every condition. -/
theorem keeps_diverging {α : Type} :
    Keeps Holds (fun _ => none : Action α) (fun _ => none) :=
  fun _ _ => ⟨rfl, fun _ ended => nomatch ended⟩

/-- Looking up a variable keeps every condition. -/
theorem keeps_lookup (name : String) : Keeps Holds (lookup name) (lookup name) := by
  intro state holds
  refine ⟨rfl, fun ending ended => ?_⟩
  unfold lookup at ended
  split at ended <;> cases ended <;> exact ⟨holds, rfl⟩

/-- Setting a variable keeps a condition that lasts when variables are set. -/
theorem keeps_assign (lasts : ∀ state name value, Holds state → Holds (state.assigned name value))
    (name : String) (value : Value) : Keeps Holds (assign name value) (assign name value) := by
  intro state holds
  refine ⟨rfl, fun ending ended => ?_⟩
  cases ended
  exact ⟨lasts state name value holds, rfl⟩

/-- Printing keeps a condition that lasts when bytes are written, taken or not. -/
theorem keeps_writeLine
    (lasts : ∀ (state : State) bytes, Holds state →
      Holds { state with sink := (state.sink.write bytes).2 })
    (value : Value) : Keeps Holds (writeLine value) (writeLine value) := by
  intro state holds
  have written := lasts state (value.text ++ "\n").toByteArray holds
  refine ⟨rfl, fun ending ended => ?_⟩
  rw [writeLine_eq] at ended
  split at ended <;> cases ended
  all_goals
    rename_i found
    rw [found] at written
    exact ⟨written, rfl⟩

/-- An action inside a form that is announced runs in the opened state. -/
theorem nested_announce {α : Type} {limit : Nat} {state : State} (room : state.depth < limit)
    (operation : Operation) (action : Action α) :
    nested limit ((announce operation).bind fun _ => action) state =
      (action (state.opened operation)).map Ending.closed := by
  have entered : ((announce operation).bind fun _ => action)
      { state with depth := state.depth + 1 } = action (state.opened operation) := rfl
  rw [nested, if_pos room, entered]
  rcases action (state.opened operation) with _ | ending <;> rfl

end Action

/-- A list is refused on both sides and changes nothing, or it is opened for one
operation on both sides, related actions run there, and it is closed. -/
theorem CongruentAt.nested_cases {left right : Machine} {Admits : Value → Prop}
    {Related : {α : Type} → (α → Prop) → Action α → Action α → Prop}
    {operands others : List Operand}
    (congruent : CongruentAt left right (.list (operands.map Operand.expr)) Admits Related)
    (alike : List.Forall₂ (Operand.Alike (Related Admits)) operands others)
    (sameLimit : left.limit = right.limit) (state : State) :
    (∃ error,
      Action.nested left.limit (left.perform operands) state = some ⟨.error error, state⟩ ∧
      Action.nested right.limit (right.perform others) state = some ⟨.error error, state⟩) ∨
    ∃ operation action other, state.depth < left.limit ∧ Related Admits action other ∧
      Action.nested left.limit (left.perform operands) state =
        (action (state.opened operation)).map Ending.closed ∧
      Action.nested right.limit (right.perform others) state =
        (other (state.opened operation)).map Ending.closed := by
  rw [← sameLimit]
  by_cases room : state.depth < left.limit
  · obtain ⟨error, _, refused, refusedToo⟩ | ⟨operation, action, other, related, done, doneToo⟩ :=
      congruent.perform_cases alike
    · have failed : (Action.fail error : Action Value) { state with depth := state.depth + 1 } =
          some ⟨.error error, { state with depth := state.depth + 1 }⟩ := rfl
      rw [refused, refusedToo, Action.nested_of_lt room failed]
      exact .inl ⟨error, rfl, rfl⟩
    · rw [done, doneToo, Action.nested_announce room, Action.nested_announce room]
      exact .inr ⟨operation, action, other, room, related, rfl, rfl⟩
  · have full := Nat.not_lt.mp room
    rw [Action.nested_of_le _ full, Action.nested_of_le _ full]
    exact .inl ⟨_, rfl, rfl⟩

/-- Operands in order have the value of the last one, after all the others. -/
theorem Operand.runLast_concat (first : Operand) (following : List Operand) (last : Operand) :
    runLast first (following ++ [last]) =
      (runEach (first :: following)).bind fun _ => last.run := by
  induction following generalizing first with
  | nil =>
      simp only [runEach, Action.bind_assoc]
      rfl
  | cons next following inductionHypothesis =>
      rw [List.cons_append, runLast, inductionHypothesis]
      simp only [runEach, Action.bind_assoc]

namespace Machine

/-- A form whose operation takes its operands opens, announces the operation and does
what the operation does. -/
theorem evaluate_form {machine : Machine} {operation : Operation} {operands : List Expr}
    {action : Action Value}
    (applied : operation.apply machine (machine.operands operands) = some action) :
    machine.evaluate (.form operation.name operands) =
      Action.nested machine.limit ((Action.announce operation).bind fun _ => action) := by
  rw [Expr.form, evaluate_list, Machine.operands, perform_of_applied applied]

/-- The form that evaluates programs in order evaluates them inside itself. -/
theorem evaluate_seq (machine : Machine) {state : State} (room : state.depth < machine.limit)
    (program : Expr) (following : List Expr) :
    machine.evaluate (.form Operation.seq.name (program :: following)) state =
      (Operand.runLast ⟨program, machine.evaluate program⟩ (machine.operands following)
        (state.opened .seq)).map Ending.closed := by
  have applied : Operation.seq.apply machine (machine.operands (program :: following)) =
      some (Operand.runLast ⟨program, machine.evaluate program⟩ (machine.operands following)) := by
    rw [operands]
    rfl
  rw [evaluate_form applied, Action.nested_announce room]

/-- The form that evaluates expressions in order has the value of the last one. -/
theorem evaluate_seq_concat (machine : Machine) (items : List Expr) (last : Expr) :
    machine.evaluate (.form Operation.seq.name (items ++ [last])) =
      Action.nested machine.limit ((Action.announce .seq).bind fun _ =>
        (Operand.runEach (machine.operands items)).bind fun _ => machine.evaluate last) := by
  refine evaluate_form ?_
  cases items with
  | nil => rfl
  | cons first following =>
      rw [List.cons_append, operands, operands_eq_map, List.map_append, operands, operands_eq_map]
      exact congrArg some (Operand.runLast_concat _ _ _)

/-- Repeating an operand runs it as often as the count says. -/
theorem apply_repeat (machine : Machine) {count : Expr} {number : Nat}
    (counted : count.count? = some number) (body : Expr) :
    Operation.repeatTimes.apply machine (machine.operands [count, body]) =
      some (((machine.evaluate body).times number).bind fun _ => Action.pure .nothing) := by
  simp only [operands, Operation.apply, Operand.count_eq, counted]
  rfl

/-- The form that repeats its body evaluates it as often as is written, inside itself. -/
theorem evaluate_repeat (machine : Machine) {state : State} (room : state.depth < machine.limit)
    {count : Expr} {number : Nat} (counted : count.count? = some number) (body : Expr) :
    machine.evaluate (.form Operation.repeatTimes.name [count, body]) state =
      ((((machine.evaluate body).times number).bind fun _ => Action.pure .nothing)
        (state.opened .repeatTimes)).map Ending.closed := by
  rw [evaluate_form (machine.apply_repeat counted body), Action.nested_announce room]

/-- The form that prints its operands evaluates and prints them inside itself. -/
theorem evaluate_print (machine : Machine) {state : State} (room : state.depth < machine.limit)
    (operands : List Expr) :
    machine.evaluate (.form Operation.print.name operands) state =
      (((Operand.printEach (machine.operands operands)).bind fun _ => Action.pure .nothing)
        (state.opened .print)).map Ending.closed := by
  have applied : Operation.print.apply machine (machine.operands operands) =
      some ((Operand.printEach (machine.operands operands)).bind fun _ => Action.pure .nothing) :=
    rfl
  rw [evaluate_form applied, Action.nested_announce room]

variable {machine : Machine} {base : Nat} {Holds : State → Prop}

/-- An invariant is kept by all that opened lists do. -/
theorem keeps_congruentAt (invariant : State.Invariant base machine.limit Holds) (expr : Expr) :
    CongruentAt machine machine expr (fun _ => True)
      (fun {_} _ first second => Action.Keeps Holds first second) where
  toSequenced := Action.keeps_sequential.sequenced
  sameMemory := rfl
  fail _ := Action.keeps_ofExcept _
  lookup _ := Action.keeps_lookup _
  assign _ _ := Action.keeps_assign (fun _ name value holds =>
    invariant.step holds (.assigned name value)) _ _
  writeLine _ _ := Action.keeps_writeLine (fun _ bytes holds =>
    invariant.step holds (.wrote bytes)) _
  abs _ _ := Action.keeps_ofExcept _
  add _ _ _ := Action.keeps_ofExcept _
  loop _ tests bodies := Action.keeps_sequential.loop Action.keeps_diverging tests bodies _

/-- An invariant is kept by a list that is opened and closed. -/
theorem keeps_nested (invariant : State.Invariant base machine.limit Holds)
    {operands others : List Operand}
    (alike : List.Forall₂ (Operand.Alike (Action.Keeps Holds)) operands others) :
    Action.Keeps Holds (Action.nested machine.limit (machine.perform operands))
      (Action.nested machine.limit (machine.perform others)) := by
  intro state holds
  obtain ⟨error, refused, refusedToo⟩ | ⟨operation, action, other, room, keeps, done, doneToo⟩ :=
    (keeps_congruentAt invariant _).nested_cases alike rfl state
  · rw [refused, refusedToo]
    exact Action.keeps_ofExcept (.error error) state holds
  · obtain ⟨same, ends⟩ := keeps _ (invariant.step holds (.opened operation room))
    rw [done, doneToo, same]
    refine ⟨rfl, fun ending ended => ?_⟩
    obtain ⟨inner, found, rfl⟩ := Option.map_eq_some_iff.mp ended
    obtain ⟨innerHolds, level⟩ := ends _ found
    have level : inner.state.depth = state.depth + 1 := level
    have inside : base < inner.state.depth := by
      rw [level]
      exact Nat.lt_succ_of_le (invariant.above holds)
    refine ⟨invariant.step innerHolds (.closed inside), ?_⟩
    show inner.state.depth - 1 = state.depth
    rw [level, Nat.add_sub_cancel]

/-- An invariant is kept by evaluations, and breakpoints where it does not hold
are not reached. -/
theorem keeps_evaluateUntil (invariant : State.Invariant base machine.limit Holds)
    {points : Expr → State → Prop}
    (avoids : ∀ part state, points part state → ¬ Holds state) (error : EvalError) (expr : Expr) :
    Action.Keeps Holds (machine.evaluateUntil (fun _ _ => none) expr)
      (machine.evaluateUntil (breakpoints points error) expr) := by
  have stopped : ∀ {part} {plain other : Action Value}, Action.Keeps Holds plain other →
      Action.Keeps Holds (plain.stopping fun _ => none)
        (other.stopping (breakpoints points error part)) := by
    intro part plain other keeps state holds
    have free := breakpoints_of_not_mem (fun there => avoids part state there holds) error
    rw [Action.stopping_of_none free, Action.stopping_of_none rfl]
    exact keeps state holds
  induction expr using Expr.induct with
  | int value =>
      rw [evaluateUntil_int, evaluateUntil_int]
      exact stopped (Action.keeps_ofExcept (.ok _))
  | str text =>
      rw [evaluateUntil_str, evaluateUntil_str]
      exact stopped (Action.keeps_ofExcept (.ok _))
  | bool value =>
      rw [evaluateUntil_bool, evaluateUntil_bool]
      exact stopped (Action.keeps_ofExcept (.ok _))
  | list items inductionHypothesis =>
      rw [evaluateUntil_list, evaluateUntil_list]
      exact stopped (keeps_nested invariant (operandsUntil_alike inductionHypothesis))

/-! ## Whole evaluations

A program that is a list is one form, and inside it at least this form is open.
So a condition on what happens there need not hold of the state at the start. -/

/-- Where an evaluation ends, and what a breakpoint is for it, given a condition
that holds when its form is opened and that steps inside the form keep. -/
theorem within_evaluateUntil {state : State}
    (invariant : State.Invariant (state.depth + 1) machine.limit Holds)
    (entered : ∀ operation, state.depth < machine.limit → Holds (state.opened operation))
    {points : Expr → State → Prop}
    (avoids : ∀ part there, points part there → there ≠ state ∧ ¬ Holds there)
    (error : EvalError) (program : Expr) :
    machine.evaluateUntil (breakpoints points error) program state =
        machine.evaluateUntil (fun _ _ => none) program state ∧
      ∀ ending, machine.evaluateUntil (fun _ _ => none) program state = some ending →
        ending.state = state ∨
          ∃ inner, Holds inner ∧ inner.depth = state.depth + 1 ∧
            ending.state = inner.withDepth state.depth := by
  have free : breakpoints points error program state = none :=
    breakpoints_of_not_mem (fun there => (avoids program state there).1 rfl) error
  cases program with
  | int value =>
      rw [evaluateUntil_int, evaluateUntil_int, Action.stopping_of_none free]
      exact ⟨rfl, fun ending ended => by cases ended; exact .inl rfl⟩
  | str text =>
      rw [evaluateUntil_str, evaluateUntil_str, Action.stopping_of_none free]
      exact ⟨rfl, fun ending ended => by cases ended; exact .inl rfl⟩
  | bool value =>
      rw [evaluateUntil_bool, evaluateUntil_bool, Action.stopping_of_none free]
      exact ⟨rfl, fun ending ended => by cases ended; exact .inl rfl⟩
  | list items =>
      have alike := operandsUntil_alike fun item (_ : item ∈ items) =>
        keeps_evaluateUntil invariant (fun part there point => (avoids part there point).2) error
          item
      rw [evaluateUntil_list, evaluateUntil_list, Action.stopping_of_none free,
        Action.stopping_of_none rfl]
      obtain ⟨error, refused, refusedToo⟩ |
        ⟨operation, action, other, room, keeps, done, doneToo⟩ :=
          (keeps_congruentAt invariant _).nested_cases alike rfl state
      · rw [refused, refusedToo]
        exact ⟨rfl, fun ending ended => by cases ended; exact .inl rfl⟩
      · obtain ⟨same, ends⟩ := keeps _ (entered operation room)
        rw [done, doneToo, same]
        refine ⟨rfl, fun ending ended => .inr ?_⟩
        obtain ⟨inner, found, rfl⟩ := Option.map_eq_some_iff.mp ended
        obtain ⟨holds, level⟩ := ends _ found
        have level : inner.state.depth = state.depth + 1 := level
        refine ⟨inner.state, holds, level, ?_⟩
        rw [Ending.closed, level, Nat.add_sub_cancel]

variable {arithmetic : Arithmetic} {memory : Memory} {limit : Nat} {program : Expr} {state : State}

/-- The state in which an evaluation ends is the one at the start, or it is the
state inside its form with the form closed. -/
theorem Ends.within {ending : Ending Value}
    (ends : Ends arithmetic memory limit program state ending)
    (invariant : State.Invariant (state.depth + 1) limit Holds)
    (entered : ∀ operation, state.depth < limit → Holds (state.opened operation)) :
    ending.state = state ∨ ∃ inner, Holds inner ∧ inner.depth = state.depth + 1 ∧
      ending.state = inner.withDepth state.depth := by
  obtain ⟨passes, ended⟩ := ends
  rw [← evaluateUntil_never] at ended
  have nowhere : ∀ part there, (fun _ _ => False : Expr → State → Prop) part there →
      there ≠ state ∧ ¬ Holds there := fun _ _ never => never.elim
  have kept := @within_evaluateUntil ⟨arithmetic, memory, limit, passes⟩ Holds state invariant
    entered _ nowhere (.depthExceeded limit) program
  exact kept.2 _ ended

/-- Where an evaluation comes to is the start, or it is inside its form. -/
theorem Reaches.within {points : Expr → State → Prop}
    (reaches : Reaches arithmetic memory limit program state points)
    (invariant : State.Invariant (state.depth + 1) limit Holds)
    (entered : ∀ operation, state.depth < limit → Holds (state.opened operation)) :
    ∃ part there, points part there ∧ (there = state ∨ Holds there) := by
  by_contra outside
  have avoids : ∀ part there, points part there → there ≠ state ∧ ¬ Holds there :=
    fun part there point => ⟨fun start => outside ⟨part, there, point, .inl start⟩,
      fun holds => outside ⟨part, there, point, .inr holds⟩⟩
  refine reaches.not_unchanged fun passes error => ?_
  rw [← evaluateUntil_never]
  exact (@within_evaluateUntil ⟨arithmetic, memory, limit, passes⟩ Holds state invariant entered _
    avoids error program).1

end Machine

end JsonForms
