import JsonForms.Proofs.Evaluation.Depth

/-!
# The work of programs without loops

Only forms that run as long as a test is truthy can go on for ever. Without them
an evaluation ends, and `Expr.work` bounds how many operations it runs: a list
costs one operation and the operations of its elements, which are taken as often
as a form that repeats its body tells. The bound is read off the program alone.

`Action.EndsWithin` is what is kept of this by every step. Unlike a relation
between actions it adds up in sequences, so the operations are gone through here
once more.
-/

namespace JsonForms

namespace Expr

/-- How often each element of a list is evaluated at most, if the list is no loop. -/
def rounds : List Expr → Nat
  | [.str name, count, _] =>
      if name = Operation.repeatTimes.name then count.count?.getD 0 else 1
  | _ => 1

mutual

/-- How many operations an evaluation runs at most, if it has no loops. -/
def work : Expr → Nat
  | .int _ | .str _ | .bool _ => 0
  | .list items => rounds items * workItems items + 1

/-- How many operations the evaluations of some expressions run at most. -/
def workItems : List Expr → Nat
  | [] => 0
  | expr :: following => expr.work + workItems following

end

/-- The elements of a form that does not repeat are evaluated once at most. -/
theorem rounds_of_ne {operation : Operation} (once : operation ≠ .repeatTimes)
    (operands : List Expr) : rounds (.str operation.name :: operands) = 1 := by
  unfold rounds
  split
  next name count _ same =>
    cases same
    refine if_neg fun repeats => once ?_
    have found := Operation.ofName?_name operation
    rw [repeats, Operation.ofName?_name] at found
    cases found
    rfl
  next => rfl

/-- The body of a repetition is evaluated as often as its count says. -/
theorem rounds_repeat (count body : Expr) :
    rounds [.str Operation.repeatTimes.name, count, body] = count.count?.getD 0 := by
  rw [rounds]
  exact if_pos rfl

end Expr

/-- The number of operations that have been reported. -/
def State.dispatches (state : State) : Nat :=
  state.events.countP fun event => event.depth?.isSome

/-- From every state the action ends, and it runs so many operations at most. -/
def Action.EndsWithin (bound : Nat) {α : Type} (action : Action α) : Prop :=
  ∀ state, ∃ ending, action state = some ending ∧
    ending.state.dispatches ≤ state.dispatches + bound

namespace Action

variable {α β : Type} {bound more : Nat}

/-- A larger bound is a bound as well. -/
theorem EndsWithin.of_le {action : Action α} (within : action.EndsWithin bound)
    (le : bound ≤ more) : action.EndsWithin more := by
  intro state
  obtain ⟨ending, ended, bounded⟩ := within state
  exact ⟨ending, ended, by omega⟩

/-- A result runs no operation. -/
theorem endsWithin_ofExcept (result : Except EvalError α) : (ofExcept result).EndsWithin 0 :=
  fun _ => ⟨_, rfl, Nat.le_refl _⟩

/-- An action that only has a value runs no operation. -/
theorem endsWithin_pure (value : α) : (Action.pure value).EndsWithin 0 :=
  endsWithin_ofExcept (.ok value)

/-- A failure runs no operation. -/
theorem endsWithin_fail (error : EvalError) : (fail error : Action α).EndsWithin 0 :=
  endsWithin_ofExcept (.error error)

/-- Announcing an operation counts it. -/
theorem endsWithin_announce (operation : Operation) : (announce operation).EndsWithin 1 := by
  refine fun state => ⟨_, rfl, ?_⟩
  simp [State.dispatches, Event.depth?]

/-- Looking up a variable runs no operation. -/
theorem endsWithin_lookup (name : String) : (lookup name).EndsWithin 0 := by
  intro state
  unfold lookup
  split <;> exact ⟨_, rfl, Nat.le_refl _⟩

/-- Setting a variable runs no operation. -/
theorem endsWithin_assign (name : String) (value : Value) : (assign name value).EndsWithin 0 := by
  refine fun state => ⟨_, rfl, ?_⟩
  simp [State.dispatches, Event.depth?]

/-- Printing a value runs no operation. -/
theorem endsWithin_writeLine (value : Value) : (writeLine value).EndsWithin 0 := by
  intro state
  rw [writeLine_eq]
  split <;> exact ⟨_, rfl, Nat.le_refl _⟩

/-- The operations of a sequence are those of both actions. -/
theorem EndsWithin.bind {first : Action α} {next : α → Action β} (within : first.EndsWithin bound)
    (withinNext : ∀ value, (next value).EndsWithin more) :
    (first.bind next).EndsWithin (bound + more) := by
  intro state
  obtain ⟨⟨error | value, middle⟩, found, bounded⟩ := within state
  · refine ⟨_, bind_of_error found next, ?_⟩
    have kept : middle.dispatches ≤ state.dispatches + bound := bounded
    show middle.dispatches ≤ state.dispatches + (bound + more)
    omega
  · obtain ⟨ending, ended, boundedNext⟩ := withinNext value middle
    refine ⟨ending, (bind_of_ok found next).trans ended, ?_⟩
    have kept : middle.dispatches ≤ state.dispatches + bound := bounded
    omega

/-- A form runs the operations that are run inside it. -/
theorem EndsWithin.nested {inner : Action α} (within : inner.EndsWithin bound) (limit : Nat) :
    (nested limit inner).EndsWithin bound := by
  intro state
  by_cases room : state.depth < limit
  · obtain ⟨⟨_, _⟩, ended, bounded⟩ := within { state with depth := state.depth + 1 }
    exact ⟨_, nested_of_lt room ended, bounded⟩
  · exact ⟨_, nested_of_le inner (Nat.not_lt.mp room), Nat.le_add_right _ _⟩

/-- Repeating an action multiplies its bound. -/
theorem EndsWithin.times {action : Action α} (within : action.EndsWithin bound) (count : Nat) :
    (action.times count).EndsWithin (count * bound) := by
  induction count with
  | zero => exact (endsWithin_pure ()).of_le (Nat.zero_le _)
  | succ count inductionHypothesis =>
      exact (within.bind fun _ => inductionHypothesis).of_le (by rw [Nat.succ_mul]; omega)

end Action

namespace Operand

/-- The evaluation of an operand ends within the work that is read off it. -/
def Bounded (operand : Operand) : Prop := operand.run.EndsWithin operand.expr.work

/-- How many operations the evaluations of operands run at most. -/
def workAll (operands : List Operand) : Nat := Expr.workItems (operands.map Operand.expr)

/-- Without operands there is no work. -/
@[simp]
theorem workAll_nil : workAll [] = 0 := by
  rw [workAll, List.map_nil, Expr.workItems]

/-- The work of operands is that of the first one and that of the others. -/
@[simp]
theorem workAll_cons (operand : Operand) (following : List Operand) :
    workAll (operand :: following) = operand.expr.work + workAll following := by
  rw [workAll, List.map_cons, Expr.workItems, workAll]

/-- Evaluating operands one after another stays within their work. -/
theorem endsWithin_runLast {first : Operand} {operands : List Operand}
    (bounded : ∀ operand ∈ first :: operands, operand.Bounded) :
    (runLast first operands).EndsWithin (workAll (first :: operands)) := by
  induction operands generalizing first with
  | nil => exact (bounded first (.head _)).of_le (by simp)
  | cons next following inductionHypothesis =>
      rw [workAll_cons]
      have later := inductionHypothesis fun operand member => bounded operand (.tail _ member)
      exact (bounded first (.head _)).bind fun _ => later

/-- Printing operands one after another stays within their work. -/
theorem endsWithin_printEach {operands : List Operand}
    (bounded : ∀ operand ∈ operands, operand.Bounded) :
    (printEach operands).EndsWithin (workAll operands) := by
  induction operands with
  | nil => exact (Action.endsWithin_pure ()).of_le (Nat.zero_le _)
  | cons first following inductionHypothesis =>
      rw [workAll_cons]
      have later := inductionHypothesis fun operand member => bounded operand (.tail _ member)
      refine (bounded first (.head _)).bind fun value => ?_
      exact ((Action.endsWithin_writeLine value).bind fun _ => later).of_le (by omega)

/-- A name is taken from an operand without evaluating it. -/
theorem endsWithin_variableName {target : Operand} {operation : Operation} {bound : Nat}
    {next : String → Action Value} (within : ∀ name, (next name).EndsWithin bound) :
    ((target.variableName operation 0).bind next).EndsWithin bound := by
  rw [variableName_eq]
  split
  · exact within _
  · exact (Action.endsWithin_fail _).of_le (Nat.zero_le _)

/-- A number is taken from an operand without evaluating it. -/
theorem endsWithin_count {operand : Operand} {operation : Operation} {bound : Nat}
    {next : Nat → Action Value}
    (within : ∀ number, operand.expr.count? = some number → (next number).EndsWithin bound) :
    ((operand.count operation 0).bind next).EndsWithin bound := by
  rw [count_eq]
  split
  next number written => exact within number written
  next => exact (Action.endsWithin_fail _).of_le (Nat.zero_le _)

end Operand

namespace Operation

open JsonForms.Action

/-- Two operands in their order, and a last step of no work. -/
theorem endsWithin_two {first second : Operand} {last : Value → Value → Action Value}
    (bounded : ∀ operand ∈ [first, second], operand.Bounded)
    (within : ∀ left right, (last left right).EndsWithin 0) :
    (first.run.bind fun left => second.run.bind fun right => last left right).EndsWithin
      (Operand.workAll [first, second]) := by
  have operands := (bounded first (.head _)).bind fun left =>
    (bounded second (.tail _ (.head _))).bind (within left)
  exact operands.of_le (by simp)

/-- Comparing two operands stays within their work. -/
theorem endsWithin_ordered {operation : Operation} {holds : Ordering → Bool}
    {first second : Operand} (bounded : ∀ operand ∈ [first, second], operand.Bounded) :
    (ordered operation holds first second).EndsWithin (Operand.workAll [first, second]) := by
  refine endsWithin_two bounded fun left right => ?_
  split
  · exact endsWithin_pure _
  · exact endsWithin_fail _

/-- An operation that neither repeats nor loops evaluates each operand once at most. -/
theorem endsWithin_apply (machine : Machine) {operation : Operation}
    (once : operation ≠ .repeatTimes) (noLoop : operation ≠ .whileTrue) {operands : List Operand}
    (bounded : ∀ operand ∈ operands, operand.Bounded) {action : Action Value}
    (applied : operation.apply machine operands = some action) :
    action.EndsWithin (Operand.workAll operands) := by
  cases operation with
  | abs =>
      rcases operands with _ | ⟨operand, _ | _⟩ <;> cases applied
      have last := (bounded operand (.head _)).bind fun value =>
        endsWithin_ofExcept (machine.arithmetic.abs value)
      exact last.of_le (by simp)
  | add =>
      rcases operands with _ | ⟨first, _ | ⟨second, _ | _⟩⟩ <;> cases applied
      exact endsWithin_two bounded fun _ _ => endsWithin_ofExcept _
  | equal =>
      rcases operands with _ | ⟨first, _ | ⟨second, _ | _⟩⟩ <;> cases applied
      exact endsWithin_two bounded fun _ _ => endsWithin_pure _
  | leq =>
      rcases operands with _ | ⟨first, _ | ⟨second, _ | _⟩⟩ <;> cases applied
      exact endsWithin_ordered bounded
  | geq =>
      rcases operands with _ | ⟨first, _ | ⟨second, _ | _⟩⟩ <;> cases applied
      exact endsWithin_ordered bounded
  | get =>
      rcases operands with _ | ⟨target, _ | _⟩ <;> cases applied
      exact Operand.endsWithin_variableName fun name =>
        (endsWithin_lookup name).of_le (Nat.zero_le _)
  | set =>
      rcases operands with _ | ⟨target, _ | ⟨operand, _ | _⟩⟩ <;> cases applied
      refine Operand.endsWithin_variableName fun name => ?_
      have assigned := (bounded operand (.tail _ (.head _))).bind fun value =>
        (endsWithin_assign name value).bind fun _ => endsWithin_pure value
      exact assigned.of_le (by simp)
  | seq =>
      rcases operands with _ | ⟨first, following⟩ <;> cases applied
      exact Operand.endsWithin_runLast bounded
  | ifThen =>
      rcases operands with _ | ⟨test, _ | ⟨body, _ | ⟨otherwise, _ | _⟩⟩⟩ <;> cases applied
      · have branch : ∀ value : Value,
            (if value.isTruthy then body.run else Action.pure .nothing).EndsWithin
              body.expr.work := by
          intro value
          split
          · exact bounded body (.tail _ (.head _))
          · exact (endsWithin_pure _).of_le (Nat.zero_le _)
        exact ((bounded test (.head _)).bind branch).of_le (by simp)
      · have branch : ∀ value : Value,
            (if value.isTruthy then body.run else otherwise.run).EndsWithin
              (body.expr.work + otherwise.expr.work) := by
          intro value
          split
          · exact (bounded body (.tail _ (.head _))).of_le (Nat.le_add_right _ _)
          · exact (bounded otherwise (.tail _ (.tail _ (.head _)))).of_le (Nat.le_add_left _ _)
        exact ((bounded test (.head _)).bind branch).of_le (by simp)
  | print =>
      cases applied
      exact (Operand.endsWithin_printEach bounded).bind fun _ => endsWithin_pure _
  | array =>
      rcases operands with _ | ⟨count, _ | _⟩ <;> cases applied
      refine Operand.endsWithin_count fun number _ => ?_
      unfold allocate
      split
      · exact (endsWithin_pure _).of_le (Nat.zero_le _)
      · exact (endsWithin_fail _).of_le (Nat.zero_le _)
  | repeatTimes => exact absurd rfl once
  | whileTrue => exact absurd rfl noLoop

/-- A form that repeats its body evaluates it as often as is written. -/
theorem endsWithin_repeat (machine : Machine) {operands : List Operand}
    (bounded : ∀ operand ∈ operands, operand.Bounded) {action : Action Value}
    (applied : Operation.repeatTimes.apply machine operands = some action) :
    action.EndsWithin
      (Expr.rounds (.str Operation.repeatTimes.name :: operands.map Operand.expr) *
        Operand.workAll operands) := by
  rcases operands with _ | ⟨count, _ | ⟨body, _ | _⟩⟩ <;> cases applied
  rw [List.map_cons, List.map_singleton, Expr.rounds_repeat]
  refine Operand.endsWithin_count fun number written => ?_
  have repeated := ((bounded body (.tail _ (.head _))).times number).bind fun _ =>
    endsWithin_pure Value.nothing
  refine repeated.of_le ?_
  rw [written, Option.getD_some, Nat.add_zero]
  exact Nat.mul_le_mul_left _ (by simp)

end Operation

namespace Machine

/-- An opened list that is no loop ends within the work of its elements and one
operation of its own. -/
theorem endsWithin_perform (machine : Machine) {head : Expr} {operands : List Operand}
    (noLoop : head ≠ .str Operation.whileTrue.name)
    (bounded : ∀ operand ∈ operands, operand.Bounded) (run : Action Value) :
    (machine.perform (⟨head, run⟩ :: operands)).EndsWithin
      (Expr.work (.list (head :: operands.map Operand.expr))) := by
  have failed : ∀ error, (Action.fail error : Action Value).EndsWithin
      (Expr.work (.list (head :: operands.map Operand.expr))) := fun error =>
    (Action.endsWithin_fail error).of_le (Nat.zero_le _)
  cases head with
  | str name =>
      cases found : Operation.ofName? name with
      | none =>
          simp only [perform, found]
          exact failed _
      | some operation =>
          obtain rfl := Operation.name_of_ofName? found
          cases applied : operation.apply machine operands with
          | none =>
              rw [perform_of_refused applied]
              exact failed _
          | some action =>
              have inside : action.EndsWithin
                  (Expr.rounds (.str operation.name :: operands.map Operand.expr) *
                    Operand.workAll operands) := by
                by_cases repeats : operation = .repeatTimes
                · subst repeats
                  exact Operation.endsWithin_repeat machine bounded applied
                · rw [Expr.rounds_of_ne repeats, Nat.one_mul]
                  have noLoop : operation ≠ .whileTrue := fun loops => noLoop (by rw [loops])
                  exact Operation.endsWithin_apply machine repeats noLoop bounded applied
              rw [perform_of_applied applied]
              refine ((Action.endsWithin_announce operation).bind fun _ => inside).of_le ?_
              rw [Expr.work, Expr.workItems, Expr.work, Nat.zero_add, Nat.add_comm]
              exact Nat.le_refl _
  | int | bool | list => exact failed _

/-- A program without loops ends within its work. -/
theorem endsWithin_evaluate (machine : Machine) {program : Expr} (noLoops : ¬ program.Loops) :
    (machine.evaluate program).EndsWithin program.work := by
  induction program using Expr.induct with
  | int value => exact Action.endsWithin_pure (Value.int value.toInt)
  | str text => exact Action.endsWithin_pure (Value.str text)
  | bool value => exact Action.endsWithin_pure (Value.bool value)
  | list items inductionHypothesis =>
      rw [evaluate_list]
      refine Action.EndsWithin.nested ?_ machine.limit
      cases items with
      | nil => exact (Action.endsWithin_fail _).of_le (Nat.zero_le _)
      | cons head following =>
          have noLoop : head ≠ .str Operation.whileTrue.name := by
            rintro rfl
            exact noLoops ⟨following, .self _⟩
          have bounded : ∀ operand ∈ machine.operands following, operand.Bounded := by
            rw [operands_eq_map, List.forall_mem_map]
            intro item member
            have inside : item ∈ head :: following := .tail _ member
            exact inductionHypothesis item inside fun ⟨operands, loop⟩ =>
              noLoops ⟨operands, .inside inside loop⟩
          have performed := machine.endsWithin_perform noLoop bounded (machine.evaluate head)
          rw [operands_eq_map, List.map_map] at performed
          rw [operands, operands_eq_map]
          have written : following.map
              (Operand.expr ∘ fun expr => ⟨expr, machine.evaluate expr⟩) = following :=
            List.map_id following
          rwa [written] at performed

/-- An evaluation whose program is no loop and has none in it ends, in whatever
state and under whatever limit it starts. How many passes loops may take plays no
part, and no more operations run than the work that is read off the program. -/
theorem programs_without_loops_end (arithmetic : Arithmetic) (memory : Memory) (limit : Nat)
    {program : Expr} (noLoops : ¬ program.Loops) (state : State) :
    ∃ ending, Ends arithmetic memory limit program state ending ∧
      (∀ passes, (⟨arithmetic, memory, limit, passes⟩ : Machine).evaluate program state =
        some ending) ∧
      ending.state.dispatches ≤ state.dispatches + program.work := by
  obtain ⟨ending, ended, bounded⟩ :=
    endsWithin_evaluate ⟨arithmetic, memory, limit, 0⟩ noLoops state
  exact ⟨ending, ⟨0, ended⟩, fun passes => evaluate_of_le (Nat.zero_le passes) ended, bounded⟩

/-- Six operations at most for a form that repeats another one three times, and for
a list that is no form. This list has no operation, so five of them run. -/
theorem programs_without_loops_end_malformed :
    let repeated := Expr.form "repeat" [.int 3, .form "seq" [.str "while"]]
    let program := Expr.form "seq" [repeated, .list []]
    let state : State := ⟨.empty, .unlimited, #[], 0⟩
    ¬ program.Loops ∧ program.work = 6 ∧
    ∃ ending, Ends .word64 (.below 16) 5 program state ending ∧
      ending.result = .error (.malformed .emptyList) ∧ ending.state.dispatches = 5 ∧
      ending.state.dispatches ≤ state.dispatches + program.work := by
  intro repeated program state
  have noLoops : ¬ program.Loops := by
    rintro ⟨operands, loop⟩
    simp [program, repeated, Expr.form, Operation.name] at loop
  obtain ⟨ending, ends, _, bounded⟩ :=
    programs_without_loops_end .word64 (.below 16) 5 noLoops state
  let machine : Machine := ⟨.word64, .below 16, 5, 0⟩
  let events : Array Event := #[.dispatch .seq 1, .dispatch .repeatTimes 2, .dispatch .seq 3,
    .dispatch .seq 3, .dispatch .seq 3]
  have three : (Expr.int 3).count? = some 3 := by decide
  have inside : machine.evaluate repeated (state.opened .seq) =
      some ⟨.ok .nothing, ⟨.empty, .unlimited, events, 1⟩⟩ :=
    (machine.evaluate_repeat (by decide) three _).trans rfl
  have found : Ends .word64 (.below 16) 5 program state
      ⟨.error (.malformed .emptyList), ⟨.empty, .unlimited, events, 0⟩⟩ := by
    refine ⟨0, (machine.evaluate_seq (by decide) repeated [.list []]).trans ?_⟩
    exact congrArg (Option.map Ending.closed) (Action.bind_of_ok inside _)
  cases ends.unique found
  exact ⟨noLoops, by decide, _, ends, rfl, rfl, bounded⟩

end Machine

end JsonForms
