import JsonForms.Proofs.Evaluation.Blame

/-!
# Integers are exact

Words of 64 bits never give a wrong integer. An evaluation with them does the
same as one with integers without bounds, unless it is trapped, and it is trapped
only where the exact result has no word. `Action.Exact` relates the evaluations
that are not trapped; `Action.StopsAt` finds the form that a trap comes from.
-/

namespace JsonForms

/-- Whether an evaluation ended since a result could not be represented. -/
def Ending.IsTrap {α : Type} (ending : Ending α) : Prop :=
  ∃ cause, ending.result = .error (.arithmeticTrap cause)

/-! ## Evaluations that are not trapped -/

/-- The second action ends as the first one does, unless that is trapped. -/
def Action.Exact {α : Type} (word other : Action α) : Prop :=
  ∀ state ending, word state = some ending → ¬ ending.IsTrap → other state = some ending

namespace Action

/-- Every action agrees with itself. -/
theorem Exact.refl {α : Type} (action : Action α) : action.Exact action :=
  fun _ _ ended _ => ended

/-- Actions that agree may be put one after another. -/
theorem Exact.bind {α β : Type} {first second : Action α} {next after : α → Action β}
    (agrees : first.Exact second) (agreesNext : ∀ value, (next value).Exact (after value)) :
    (first.bind next).Exact (second.bind after) := by
  intro state ending ended noTrap
  obtain ⟨error, middle, found, rfl⟩ | ⟨value, middle, found, ended⟩ := ending_of_bind ended
  · have foundToo := agrees _ _ found fun ⟨cause, trap⟩ => noTrap ⟨cause, by cases trap; rfl⟩
    exact bind_of_error foundToo after
  · rw [bind_of_ok (agrees _ _ found (by rintro ⟨_, ⟨⟩⟩))]
    exact agreesNext value _ _ ended noTrap

/-- Agreeing up to a trap is kept by sequencing. -/
theorem exact_sequential : Sequential Exact where
  pure _ := Exact.refl _
  bind := Exact.bind

/-- Results agree when they are the same unless the first one is a trap. -/
theorem exact_ofExcept {α : Type} {word other : Except EvalError α}
    (same : (∀ cause, word ≠ .error (.arithmeticTrap cause)) → other = word) :
    (ofExcept word).Exact (ofExcept other) := by
  intro state ending ended noTrap
  cases ended
  rw [same fun cause trap => noTrap ⟨cause, trap⟩]
  rfl

/-- Inner actions that agree do so one form deeper. -/
theorem Exact.nested {α : Type} {inner other : Action α} (agrees : inner.Exact other)
    (limit : Nat) : (nested limit inner).Exact (nested limit other) := by
  intro state ending ended noTrap
  obtain ⟨result, after, room, innerEnded, rfl⟩ | ⟨full, rfl⟩ := ending_of_nested ended
  · exact nested_of_lt room (agrees _ _ innerEnded noTrap)
  · exact nested_of_le other full

/-- Actions that agree do so with the same places to stop at. -/
theorem Exact.stopping {α : Type} {word other : Action α} (agrees : word.Exact other)
    (stop : State → Option EvalError) : (word.stopping stop).Exact (other.stopping stop) := by
  intro state ending ended noTrap
  rcases found : stop state with _ | error
  · rw [stopping_of_none found] at ended ⊢
    exact agrees _ _ ended noTrap
  · rw [stopping_of_some found] at ended ⊢
    exact ended

end Action

namespace Machine

variable {limit passes : Nat}

/-- What opened lists do is the same in every arithmetic, unless it is trapped. -/
theorem exact_congruence (arithmetic : Arithmetic) (memory : Memory) (limit passes : Nat) :
    Congruence ⟨.word64, memory, limit, passes⟩ ⟨arithmetic, memory, limit, passes⟩
      Action.Exact where
  toSequential := Action.exact_sequential
  sameMemory := rfl
  fail _ := Action.Exact.refl _
  nested agrees := agrees.nested limit
  announce _ := Action.Exact.refl _
  lookup _ := Action.Exact.refl _
  assign _ _ := Action.Exact.refl _
  writeLine _ := Action.Exact.refl _
  abs value := Action.exact_ofExcept fun noTrap => by
    obtain ⟨_, _, trapped⟩ | ⟨same, _⟩ := arithmetic.abs_of_word64 value
    · exact absurd trapped (noTrap _)
    · exact same
  add first second := Action.exact_ofExcept fun noTrap => by
    obtain ⟨_, _, _, _, trapped⟩ | ⟨same, _⟩ := arithmetic.add_of_word64 first second
    · exact absurd trapped (noTrap _)
    · exact same
  loop tests bodies :=
    Action.exact_sequential.loop (Action.Exact.refl _) tests bodies passes

/-- An evaluation with any breakpoints is the same in every arithmetic, unless it
is trapped. -/
theorem exact_evaluateUntil (arithmetic : Arithmetic) (memory : Memory) (limit passes : Nat)
    (stop : Expr → State → Option EvalError) (program : Expr) :
    ((⟨.word64, memory, limit, passes⟩ : Machine).evaluateUntil stop program).Exact
      ((⟨arithmetic, memory, limit, passes⟩ : Machine).evaluateUntil stop program) := by
  have congruence := exact_congruence arithmetic memory limit passes
  exact @Sequenced.evaluateUntil _ _ _ _ congruence.toSequential.sequenced stop stop program
    (fun items _ => congruence.congruentAt (.list items)) (fun _ => Action.Exact.refl _)
    (fun agrees => agrees.nested limit) (fun _ agrees => agrees.stopping _)

end Machine

/-! ## Where a trap comes from -/

/-- In a state, a form comes to integer operands, whatever the arithmetic, and
they are those of an overflow. The state after them is the final one, apart from
the number of open forms. -/
inductive Machine.Overflows (memory : Memory) (limit : Nat) (final : State) :
    Overflow → Expr → State → Prop where
  | abs {operand : Expr} {value : Int} {there after : State} (room : there.depth < limit)
      (evaluated : ∀ arithmetic, Ends arithmetic memory limit operand (there.opened .abs)
        ⟨.ok (.int value), after⟩)
      (last : final = after.withDepth final.depth) :
      Overflows memory limit final (.abs value) (.form Operation.abs.name [operand]) there
  | add {left right : Expr} {first second : Int} {there between after : State}
      (room : there.depth < limit)
      (evaluatedLeft : ∀ arithmetic, Ends arithmetic memory limit left (there.opened .add)
        ⟨.ok (.int first), between⟩)
      (evaluatedRight : ∀ arithmetic, Ends arithmetic memory limit right between
        ⟨.ok (.int second), after⟩)
      (last : final = after.withDepth final.depth) :
      Overflows memory limit final (.add first second)
        (.form Operation.add.name [left, right]) there

/-- From a state, the second action is stopped by the error, or it ends as the
first one does and is not trapped. This is asked for when the first action is
not trapped, or is trapped by the cause in the final state. -/
def Action.StopsAt (cause : Overflow) (final : State) (error : EvalError) (state : State)
    {α : Type} (word other : Action α) : Prop :=
  ∀ ending, word state = some ending →
    (∀ overflow, ending.result = .error (.arithmeticTrap overflow) →
      overflow = cause ∧ final = ending.state.withDepth final.depth) →
    (∃ after, other state = some ⟨.error error, after⟩) ∨
      other state = some ending ∧ ¬ ending.IsTrap

namespace Action

variable {cause : Overflow} {final : State} {error : EvalError} {state : State} {α β : Type}

/-- An action that is never trapped needs no place to stop at. -/
theorem stopsAt_of_noTrap {action : Action α}
    (noTrap : ∀ ending, action state = some ending → ¬ ending.IsTrap) :
    StopsAt cause final error state action action :=
  fun ending ended _ => .inr ⟨ended, noTrap ending ended⟩

/-- Results are the same and no trap, or they are a trap that is not asked for. -/
theorem stopsAt_ofExcept {word other : Except EvalError α}
    (agree : (∃ overflow, word = .error (.arithmeticTrap overflow) ∧
        (overflow = cause → final ≠ state.withDepth final.depth)) ∨
      other = word ∧ ∀ overflow, word ≠ .error (.arithmeticTrap overflow)) :
    StopsAt cause final error state (ofExcept word) (ofExcept other) := by
  intro ending ended given
  cases ended
  obtain ⟨overflow, trapped, unasked⟩ | ⟨rfl, noTrap⟩ := agree
  · obtain ⟨same, last⟩ := given overflow trapped
    exact absurd last (unasked same)
  · exact .inr ⟨rfl, fun ⟨overflow, trap⟩ => noTrap overflow trap⟩

/-- A sequence is stopped in its first action, or in its second one where the first one leads. -/
theorem StopsAt.bind {first second : Action α} {next after : α → Action β}
    (stops : StopsAt cause final error state first second)
    (stopsNext : ∀ value middle, first state = some ⟨.ok value, middle⟩ →
      StopsAt cause final error middle (next value) (after value)) :
    StopsAt cause final error state (first.bind next) (second.bind after) := by
  intro ending ended given
  obtain ⟨failure, middle, found, rfl⟩ | ⟨value, middle, found, ended⟩ := ending_of_bind ended
  · obtain ⟨_, stopped⟩ | ⟨same, noTrap⟩ := stops _ found fun overflow trap =>
      given overflow (by cases trap; rfl)
    · exact .inl ⟨_, bind_of_error stopped after⟩
    · exact .inr ⟨bind_of_error same after, fun ⟨overflow, trap⟩ =>
        noTrap ⟨overflow, by cases trap; rfl⟩⟩
  · obtain ⟨_, stopped⟩ | ⟨same, _⟩ := stops _ found nofun
    · exact .inl ⟨_, bind_of_error stopped after⟩
    · rw [bind_of_ok same]
      exact stopsNext value middle found ending ended given

/-- Being stopped before the trap is kept by sequencing. -/
theorem stopsAt_sequential (cause : Overflow) (final : State) (error : EvalError) :
    Sequential fun {_} (word other : Action _) =>
      ∀ state, StopsAt cause final error state word other where
  pure value _ := stopsAt_of_noTrap fun _ ended => by cases ended; rintro ⟨_, ⟨⟩⟩
  bind stops stopsNext _ := (stops _).bind fun value middle _ => stopsNext value middle

/-- An inner action is stopped one form deeper. -/
theorem StopsAt.nested {limit : Nat} {inner other : Action α}
    (stops : state.depth < limit →
      StopsAt cause final error { state with depth := state.depth + 1 } inner other) :
    StopsAt cause final error state (nested limit inner) (nested limit other) := by
  intro ending ended given
  obtain ⟨result, after, room, innerEnded, rfl⟩ | ⟨full, rfl⟩ := ending_of_nested ended
  · obtain ⟨_, stopped⟩ | ⟨same, noTrap⟩ := stops room _ innerEnded given
    · exact .inl ⟨_, nested_of_lt room stopped⟩
    · exact .inr ⟨nested_of_lt room same, noTrap⟩
  · exact .inr ⟨nested_of_le other full, by rintro ⟨_, ⟨⟩⟩⟩

/-- At a point the second action is stopped, so only elsewhere there is something to show. -/
theorem StopsAt.stopping {points : Expr → State → Prop} {part : Expr} {word other : Action α}
    (stops : ¬ points part state → StopsAt cause final error state word other) :
    StopsAt cause final error state word
      (other.stopping (Machine.breakpoints points error part)) := by
  intro ending ended given
  by_cases there : points part state
  · exact .inl ⟨state, stopping_of_some (Machine.breakpoints_of_mem there error) other⟩
  · rw [stopping_of_none (Machine.breakpoints_of_not_mem there error)]
    exact stops there ending ended given

end Action

namespace Machine

variable {cause : Overflow} {final : State} {error : EvalError} {arithmetic : Arithmetic}
  {memory : Memory} {limit passes : Nat}

/-- Lists that are no forms of arithmetic are not trapped themselves. -/
theorem stopsAt_congruentAt (cause : Overflow) (final : State) (error : EvalError)
    (arithmetic : Arithmetic) (memory : Memory) (limit passes : Nat) {expr : Expr}
    (noAbs : ∀ operand, expr ≠ .form Operation.abs.name [operand])
    (noAdd : ∀ left right, expr ≠ .form Operation.add.name [left, right]) :
    CongruentAt ⟨.word64, memory, limit, passes⟩ ⟨arithmetic, memory, limit, passes⟩ expr
      (fun _ => True)
      (fun {_} _ word other => ∀ state, Action.StopsAt cause final error state word other) where
  toSequenced := (Action.stopsAt_sequential cause final error).sequenced
  sameMemory := rfl
  fail raises _ := Action.stopsAt_of_noTrap fun _ ended => by
    cases ended
    rintro ⟨_, ⟨⟩⟩
    cases raises
  lookup _ _ := Action.stopsAt_of_noTrap fun _ ended => by
    unfold Action.lookup at ended
    split at ended <;> cases ended <;> rintro ⟨_, ⟨⟩⟩
  assign _ _ _ := Action.stopsAt_of_noTrap fun _ ended => by cases ended; rintro ⟨_, ⟨⟩⟩
  writeLine _ _ _ := Action.stopsAt_of_noTrap fun _ ended => by
    rw [Action.writeLine_eq] at ended
    split at ended <;> cases ended <;> rintro ⟨_, ⟨⟩⟩
  abs form _ := absurd form (noAbs _)
  add form _ _ := absurd form (noAdd _ _)
  loop _ tests bodies :=
    (Action.stopsAt_sequential cause final error).loop (fun _ _ ended => nomatch ended) tests
      bodies _

/-- A form for an absolute value announces itself, evaluates its operand and computes. -/
theorem perform_abs (machine : Machine) {name : Operand} (operand : Operand)
    (named : name.expr = .str Operation.abs.name) :
    machine.perform [name, operand] =
      (Action.announce .abs).bind fun _ => operand.run.bind fun value =>
        Action.ofExcept (machine.arithmetic.abs value) := by
  obtain ⟨_, _⟩ := name
  cases named
  rfl

/-- A form for a sum announces itself, evaluates both operands and computes. -/
theorem perform_add (machine : Machine) {name : Operand} (left right : Operand)
    (named : name.expr = .str Operation.add.name) :
    machine.perform [name, left, right] =
      (Action.announce .add).bind fun _ => left.run.bind fun first => right.run.bind fun second =>
        Action.ofExcept (machine.arithmetic.add first second) := by
  obtain ⟨_, _⟩ := name
  cases named
  rfl

/-- Announcing an operation is never trapped. -/
theorem stopsAt_announce {state : State} (operation : Operation) :
    Action.StopsAt cause final error state (Action.announce operation)
      (Action.announce operation) :=
  Action.stopsAt_of_noTrap fun _ ended => by cases ended; rintro ⟨_, ⟨⟩⟩

/-- An operand that has a value in words of 64 bits has it in every arithmetic. -/
theorem ends_of_word64 {operand : Expr} {state after : State} {value : Value}
    (ended : (⟨.word64, memory, limit, passes⟩ : Machine).evaluate operand state =
      some ⟨.ok value, after⟩) (arithmetic : Arithmetic) :
    Ends arithmetic memory limit operand state ⟨.ok value, after⟩ := by
  have agrees := (exact_congruence arithmetic memory limit passes).evaluate operand
  exact ⟨passes, agrees _ _ ended (by rintro ⟨_, ⟨⟩⟩)⟩

/-- An absolute value is trapped only where its form overflows. -/
theorem stopsAt_abs {operand : Expr} {other : Action Value} {state : State}
    (stops : ∀ there, Action.StopsAt cause final error there
      ((⟨.word64, memory, limit, passes⟩ : Machine).evaluate operand) other)
    (elsewhere : ¬ Overflows memory limit final cause (.form Operation.abs.name [operand]) state) :
    Action.StopsAt cause final error state
      (Action.nested limit ((Action.announce .abs).bind fun _ =>
        ((⟨.word64, memory, limit, passes⟩ : Machine).evaluate operand).bind fun value =>
          Action.ofExcept (Arithmetic.word64.abs value)))
      (Action.nested limit ((Action.announce .abs).bind fun _ =>
        other.bind fun value => Action.ofExcept (arithmetic.abs value))) := by
  refine .nested fun room => (stopsAt_announce .abs).bind fun _ opened announced => ?_
  -- What the operand comes to in words it comes to in every arithmetic, as it is not trapped.
  cases announced
  refine (stops _).bind fun value after evaluated => Action.stopsAt_ofExcept ?_
  refine (arithmetic.abs_of_word64 value).imp_left ?_
  rintro ⟨number, rfl, trapped⟩
  refine ⟨_, trapped, ?_⟩
  rintro rfl last
  exact elsewhere (.abs room (ends_of_word64 evaluated) last)

/-- A sum is trapped only where its form overflows. -/
theorem stopsAt_add {left right : Expr} {first second : Action Value} {state : State}
    (stopsLeft : ∀ there, Action.StopsAt cause final error there
      ((⟨.word64, memory, limit, passes⟩ : Machine).evaluate left) first)
    (stopsRight : ∀ there, Action.StopsAt cause final error there
      ((⟨.word64, memory, limit, passes⟩ : Machine).evaluate right) second)
    (elsewhere : ¬ Overflows memory limit final cause
      (.form Operation.add.name [left, right]) state) :
    Action.StopsAt cause final error state
      (Action.nested limit ((Action.announce .add).bind fun _ =>
        ((⟨.word64, memory, limit, passes⟩ : Machine).evaluate left).bind fun value =>
          ((⟨.word64, memory, limit, passes⟩ : Machine).evaluate right).bind fun added =>
            Action.ofExcept (Arithmetic.word64.add value added)))
      (Action.nested limit ((Action.announce .add).bind fun _ =>
        first.bind fun value => second.bind fun added =>
          Action.ofExcept (arithmetic.add value added))) := by
  refine .nested fun room => (stopsAt_announce .add).bind fun _ opened announced => ?_
  cases announced
  refine (stopsLeft _).bind fun value between evaluatedLeft => ?_
  refine (stopsRight _).bind fun added after evaluatedRight => Action.stopsAt_ofExcept ?_
  refine (arithmetic.add_of_word64 value added).imp_left ?_
  rintro ⟨_, _, rfl, rfl, trapped⟩
  refine ⟨_, trapped, ?_⟩
  rintro rfl last
  exact elsewhere (.add room (ends_of_word64 evaluatedLeft) (ends_of_word64 evaluatedRight) last)

/-- Other lists are trapped only where one of their elements is. -/
theorem stopsAt_list {items : List Expr} {stop : Expr → State → Option EvalError} {state : State}
    (noAbs : ∀ operand, Expr.list items ≠ .form Operation.abs.name [operand])
    (noAdd : ∀ left right, Expr.list items ≠ .form Operation.add.name [left, right])
    (stops : ∀ item ∈ items, ∀ there, Action.StopsAt cause final error there
      ((⟨.word64, memory, limit, passes⟩ : Machine).evaluate item)
      ((⟨arithmetic, memory, limit, passes⟩ : Machine).evaluateUntil stop item)) :
    Action.StopsAt cause final error state
      (Action.nested limit ((⟨.word64, memory, limit, passes⟩ : Machine).perform
        ((⟨.word64, memory, limit, passes⟩ : Machine).operands items)))
      (Action.nested limit ((⟨arithmetic, memory, limit, passes⟩ : Machine).perform
        ((⟨arithmetic, memory, limit, passes⟩ : Machine).operandsUntil stop items))) := by
  have opened := stopsAt_congruentAt cause final error arithmetic memory limit passes noAbs noAdd
  rw [← map_expr_operandsUntil ⟨.word64, memory, limit, passes⟩ (fun _ _ => none) items] at opened
  have alike := @operandsUntil_alike ⟨.word64, memory, limit, passes⟩
    ⟨arithmetic, memory, limit, passes⟩ (fun _ _ => none) stop
    (fun word other => ∀ there, Action.StopsAt cause final error there word other) items
    fun item member => by rw [evaluateUntil_never]; exact stops item member
  rw [← operandsUntil_never]
  exact .nested fun _ => opened.perform (fun operation _ => stopsAt_announce operation) alike _

/-- A breakpoint at every form that overflows stops an evaluation before it is
trapped. -/
theorem stopsAt_evaluateUntil (cause : Overflow) (final : State) (error : EvalError)
    (arithmetic : Arithmetic) (memory : Memory) (limit passes : Nat) (program : Expr)
    (state : State) :
    Action.StopsAt cause final error state
      ((⟨.word64, memory, limit, passes⟩ : Machine).evaluate program)
      ((⟨arithmetic, memory, limit, passes⟩ : Machine).evaluateUntil
        (breakpoints (Overflows memory limit final cause) error) program) := by
  have sequential := Action.stopsAt_sequential cause final error
  induction program using Expr.induct generalizing state with
  | int value =>
      rw [evaluateUntil_int]
      exact .stopping fun _ => sequential.pure (Value.int value.toInt) state
  | str text =>
      rw [evaluateUntil_str]
      exact .stopping fun _ => sequential.pure (Value.str text) state
  | bool value =>
      rw [evaluateUntil_bool]
      exact .stopping fun _ => sequential.pure (Value.bool value) state
  | list items inductionHypothesis =>
      rw [evaluate_list, evaluateUntil_list]
      refine .stopping fun elsewhere => ?_
      -- Only the forms of arithmetic are trapped themselves, so they are told from other lists.
      by_cases isAbs : ∃ operand, Expr.list items = .form Operation.abs.name [operand]
      · obtain ⟨operand, ⟨⟩⟩ := isAbs
        rw [operands_eq_map, operandsUntil_eq_map, List.map_cons, List.map_singleton,
          List.map_cons, List.map_singleton, perform_abs _ _ rfl, perform_abs _ _ rfl]
        exact stopsAt_abs (inductionHypothesis operand (.tail _ (.head _))) elsewhere
      by_cases isAdd : ∃ left right, Expr.list items = .form Operation.add.name [left, right]
      · obtain ⟨left, right, ⟨⟩⟩ := isAdd
        rw [operands_eq_map, operandsUntil_eq_map, List.map_cons, List.map_cons,
          List.map_singleton, List.map_cons, List.map_cons, List.map_singleton,
          perform_add _ _ _ rfl, perform_add _ _ _ rfl]
        exact stopsAt_add (inductionHypothesis left (.tail _ (.head _)))
          (inductionHypothesis right (.tail _ (.tail _ (.head _)))) elsewhere
      · exact stopsAt_list (fun operand same => isAbs ⟨operand, same⟩)
          (fun left right same => isAdd ⟨left, right, same⟩) inductionHypothesis

/-- The result that a trap is about has no word of 64 bits. -/
theorem Ends.outside_of_trap {limit : Nat} {program : Expr} {state final : State}
    {cause : Overflow}
    (ends : Ends .word64 memory limit program state ⟨.error (.arithmeticTrap cause), final⟩) :
    ¬ (-0x8000000000000000 ≤ cause.exact ∧ cause.exact ≤ 0x7fffffffffffffff) := by
  obtain ⟨passes, ended⟩ := ends
  obtain cut | ⟨overflow, _⟩ :=
    blaming_evaluate ⟨.word64, memory, limit, passes⟩ program _ _ _ ended
  · cases cut
  · simp only [Arithmetic.represents, Bool.and_eq_false_iff, decide_eq_false_iff_not] at overflow
    omega

/-- Without bounds on integers nothing is trapped. -/
theorem Ends.not_isTrap {limit : Nat} {program : Expr} {state : State} {ending : Ending Value}
    (ends : Ends .unbounded memory limit program state ending) : ¬ ending.IsTrap := by
  rintro ⟨cause, trap⟩
  obtain ⟨result, final⟩ := ending
  cases trap
  obtain ⟨passes, ended⟩ := ends
  obtain cut | ⟨overflow, _⟩ :=
    blaming_evaluate ⟨.unbounded, memory, limit, passes⟩ program _ _ _ ended
  · cases cut
  · cases overflow

/-- An evaluation that is not trapped ends in the same way when integers have no
bounds. One that is trapped goes on alike as far as any breakpoint that it comes
to; both come to one form whose operands are the integers that the trap is about,
and their exact result has no word. Without bounds nothing is trapped. -/
theorem words_are_exact (memory : Memory) (limit : Nat) (program : Expr) (state : State) :
    (∀ ending, Ends .word64 memory limit program state ending → ¬ ending.IsTrap →
      Ends .unbounded memory limit program state ending) ∧
    (∀ stop ending, EndsUntil .word64 memory limit stop program state ending → ¬ ending.IsTrap →
      EndsUntil .unbounded memory limit stop program state ending) ∧
    (∀ cause final,
      Ends .word64 memory limit program state ⟨.error (.arithmeticTrap cause), final⟩ →
      (∀ arithmetic, Reaches arithmetic memory limit program state
          (Overflows memory limit final cause)) ∧
        ¬ (-0x8000000000000000 ≤ cause.exact ∧ cause.exact ≤ 0x7fffffffffffffff)) ∧
    ∀ ending, Ends .unbounded memory limit program state ending → ¬ ending.IsTrap := by
  refine ⟨?_, ?_, fun cause final ends => ⟨fun arithmetic => ?_, ends.outside_of_trap⟩,
    fun ending ends => ends.not_isTrap⟩
  · rintro ending ⟨passes, ended⟩ noTrap
    exact ⟨passes, (exact_congruence .unbounded memory limit passes).evaluate program _ _ ended
      noTrap⟩
  · rintro stop ending ⟨passes, ended⟩ noTrap
    exact ⟨passes, exact_evaluateUntil .unbounded memory limit passes stop program _ _ ended noTrap⟩
  · obtain ⟨passes, ended⟩ := ends
    refine ⟨passes, fun error => ?_⟩
    obtain stopped | ⟨_, noTrap⟩ := stopsAt_evaluateUntil cause final error arithmetic memory limit
      passes program state _ ended fun overflow trap => by cases trap; exact ⟨rfl, rfl⟩
    · exact stopped
    · exact absurd ⟨cause, rfl⟩ noTrap

/-- Nothing can be added to the largest word, and one cannot. -/
theorem words_are_exact_largest :
    let start : State := ⟨.empty, .unlimited, #[], 0⟩
    let largest := Expr.form "add" [.int Int64.maxValue, .int 0]
    let program := Expr.form "add" [largest, .form "abs" [.int 1]]
    let final : State :=
      ⟨.empty, .unlimited, #[.dispatch .add 1, .dispatch .add 2, .dispatch .abs 2], 0⟩
    let cause := Overflow.add 0x7fffffffffffffff 1
    (∃ ending, Ends .word64 (.below 16) 1 largest start ending ∧
      Ends .unbounded (.below 16) 1 largest start ending) ∧
    Ends .word64 (.below 16) 2 program start ⟨.error (.arithmeticTrap cause), final⟩ ∧
      Reaches .unbounded (.below 16) 2 program start (Overflows (.below 16) 2 final cause) ∧
      ¬ (-0x8000000000000000 ≤ cause.exact ∧ cause.exact ≤ 0x7fffffffffffffff) := by
  intro start largest program final cause
  have ends : Ends .word64 (.below 16) 1 largest start
      ⟨.ok (.int 0x7fffffffffffffff), ⟨.empty, .unlimited, #[.dispatch .add 1], 0⟩⟩ := ⟨0, rfl⟩
  have trapped : Ends .word64 (.below 16) 2 program start ⟨.error (.arithmeticTrap cause), final⟩ :=
    ⟨0, rfl⟩
  obtain ⟨reaches, outside⟩ := (words_are_exact (.below 16) 2 program start).2.2.1 cause final
    trapped
  refine ⟨⟨_, ends, (words_are_exact (.below 16) 1 largest start).1 _ ends ?_⟩, trapped, reaches _,
    outside⟩
  rintro ⟨_, ⟨⟩⟩

end Machine

end JsonForms
