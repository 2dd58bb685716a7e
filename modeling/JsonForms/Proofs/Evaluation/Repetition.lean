import JsonForms.Proofs.Evaluation.Unrolling

/-!
# Repetitions written out

A form that repeats its body can be written out as a sequence of as many copies of the
body. A sequence has at least one operand and the value of the last one, so behind the
copies there is a form that prints nothing. This form has to be opened, so the two are
compared where there is room for one more form than the copies themselves need.

Two repetitions of one body in turn are one repetition as often as both. Between them
the first form is closed and the second one is opened, which is seen in the events only.
-/

namespace JsonForms

/-- Repeating an action as often as two numbers together is repeating it as often as the one and
then as often as the other. -/
theorem Action.times_add {α : Type} (action : Action α) (first second : Nat) :
    action.times (first + second) = (action.times first).bind fun _ => action.times second := by
  induction first with
  | zero =>
      rw [Nat.zero_add]
      rfl
  | succ first inductionHypothesis =>
      rw [Nat.succ_add, times, inductionHypothesis, times, bind_assoc]

/-- Actions that go abreast do so when they are run as often as each other. -/
theorem Action.Abreast.times {more : Nat} {start otherStart : State} {action other : Action Value}
    (abreast : Abreast more start otherStart action other) (count : Nat) :
    Abreast more start otherStart (action.times count) (other.times count) :=
  @SequencedFamily.times Bool _ _ (abreast_sequential more start otherStart).sequenced.family
    (Machine.side action other) abreast count

namespace Expr

/-- The form that evaluates a body so many times. -/
def repeated (count : Nat) (body : Expr) : Expr :=
  .form Operation.repeatTimes.name [.int (Int64.ofNat count), body]

/-- So many copies of a body in order, and a form that prints nothing behind them. -/
def copies (count : Nat) (body : Expr) : Expr :=
  .form Operation.seq.name (List.replicate count body ++ [.form Operation.print.name []])

/-- A number in the range of literals is the count that its literal stands for. -/
theorem count?_ofNat {count : Nat} (fits : count < 0x8000000000000000) :
    (Expr.int (Int64.ofNat count)).count? = some count := by
  have value : (Int64.ofNat count).toInt = count := Int64.toInt_ofNat_of_lt fits
  rw [count?, value, if_pos (Int.natCast_nonneg count), Int.toNat_natCast]

end Expr

/-- Closing a form on both sides is not seen. -/
theorem Ending.rel_closed {α : Type} {ended otherEnded : Option (Ending α)}
    (same : Option.Rel ShowsSame ended otherEnded) :
    Option.Rel ShowsSame (ended.map closed) (otherEnded.map closed) := by
  cases same with
  | some alike => exact .some ⟨alike.result, alike.environment, alike.written⟩
  | none => exact .none

namespace Machine

/-- Evaluating copies of a body in order is repeating the evaluation of the body. -/
theorem runEach_replicate (machine : Machine) (body : Expr) (count : Nat) :
    Operand.runEach (machine.operands (List.replicate count body)) =
      (machine.evaluate body).times count := by
  induction count with
  | zero => rfl
  | succ count inductionHypothesis =>
      rw [List.replicate_succ, operands, Operand.runEach, inductionHypothesis, Action.times]

/-- A form that repeats its body announces itself and repeats the evaluation. -/
theorem evaluate_repeated (machine : Machine) {count : Nat} (fits : count < 0x8000000000000000)
    (body : Expr) :
    machine.evaluate (.repeated count body) =
      Action.nested machine.limit ((Action.announce .repeatTimes).bind fun _ =>
        ((machine.evaluate body).times count).bind fun _ => Action.pure .nothing) :=
  evaluate_form (machine.apply_repeat (Expr.count?_ofNat fits) body)

/-- Copies of a body in a sequence repeat the evaluation, with the form that prints nothing last. -/
theorem evaluate_copies (machine : Machine) (count : Nat) (body : Expr) :
    machine.evaluate (.copies count body) =
      Action.nested machine.limit ((Action.announce .seq).bind fun _ =>
        ((machine.evaluate body).times count).bind fun _ =>
          machine.evaluate (.form Operation.print.name [])) := by
  rw [Expr.copies, evaluate_seq_concat, runEach_replicate]

/-- Printing no operands has no value and is only reported. -/
theorem evaluate_print_nil (machine : Machine) {state : State}
    (room : state.depth < machine.limit) :
    machine.evaluate (.form Operation.print.name []) state =
      some ⟨.ok .nothing,
        state.reporting (state.events.push (.dispatch .print (state.depth + 1)))⟩ := by
  rw [evaluate_print machine room, operands]
  rfl

variable {arithmetic : Arithmetic} {memory : Memory} {limit count : Nat} {body : Expr}
  {state other : State}

/-- From states that differ only in what has been reported, a body that is run so many
times shows the same. -/
theorem times_showsSame (machine : Machine) (body : Expr) (count : Nat) {level : Nat}
    (besides : State.Besides level level state other) :
    (machine.evaluate body).times count state = none ∧
        (machine.evaluate body).times count other = none ∨
      ∃ result after final, (machine.evaluate body).times count state = some ⟨result, after⟩ ∧
        (machine.evaluate body).times count other = some ⟨result, final⟩ ∧
        (⟨result, after⟩ : Ending Unit).ShowsSame ⟨result, final⟩ ∧
        after.depth = level ∧ final.depth = level := by
  have once : Action.Abreast 0 state other (machine.evaluate body) (machine.evaluate body) :=
    abreast_evaluate machine.arithmetic machine.memory machine.limit machine.passes fun _ _ => by
      rw [besides.environment]
  have depth : other.depth = state.depth := besides.otherLevel.trans besides.level.symm
  have alike : state.sink.Alike other.sink := by
    rw [besides.sink]
    exact ⟨rfl, fun _ => rfl⟩
  obtain unended | ⟨result, after, final, ended, otherEnded, reached, kept⟩ :=
    once.times count _ _ (State.abreast_start depth alike)
  · exact .inl unended
  · rw [mapError_deeper_zero] at otherEnded
    have shows : (⟨result, after⟩ : Ending Unit).ShowsSame ⟨result, final⟩ :=
      ⟨rfl, (reached.environment_eq besides.environment.symm).symm,
        (reached.written_eq (congrArg Sink.written besides.sink.symm)).symm⟩
    have level := kept.trans besides.level
    exact .inr ⟨result, after, final, ended, otherEnded, shows, level, reached.depth.trans level⟩

/-- So it does when both sides then go on alike and close their forms. -/
theorem times_bind_showsSame (machine : Machine) (body : Expr) (count : Nat) {level : Nat}
    (besides : State.Besides level level state other) {next otherNext : Action Value}
    (goesOn : ∀ after final, (⟨.ok (), after⟩ : Ending Unit).ShowsSame ⟨.ok (), final⟩ →
      final.depth = level → Option.Rel Ending.ShowsSame (next after) (otherNext final)) :
    Option.Rel Ending.ShowsSame
      (((((machine.evaluate body).times count).bind fun _ => next) state).map Ending.closed)
      (((((machine.evaluate body).times count).bind fun _ => otherNext) other).map
        Ending.closed) := by
  obtain ⟨unended, otherUnended⟩ | ⟨error | _, after, final, ended, otherEnded, shows, _, level⟩ :=
    times_showsSame machine body count besides
  · rw [Action.bind_of_none unended, Action.bind_of_none otherUnended]
    exact .none
  · rw [Action.bind_of_error ended, Action.bind_of_error otherEnded]
    exact .some ⟨rfl, shows.environment, shows.written⟩
  · rw [Action.bind_of_ok ended, Action.bind_of_ok otherEnded]
    exact Ending.rel_closed (goesOn after final shows level)

/-- A repetition shows what the copies of its body show. -/
theorem repeated_showsSame_copies (machine : Machine) (fits : count < 0x8000000000000000)
    (room : state.depth + 2 ≤ machine.limit) :
    Option.Rel Ending.ShowsSame (machine.evaluate (.repeated count body) state)
      (machine.evaluate (.copies count body) state) := by
  have opens : state.depth < machine.limit := by omega
  have besides : State.Besides (state.depth + 1) (state.depth + 1) (state.opened .repeatTimes)
      (state.opened .seq) := ⟨rfl, rfl, rfl, rfl⟩
  rw [machine.evaluate_repeated fits, evaluate_copies, Action.nested_announce opens,
    Action.nested_announce opens]
  refine machine.times_bind_showsSame body count besides fun after final shows level => ?_
  have roomInside : final.depth < machine.limit := by omega
  rw [machine.evaluate_print_nil roomInside]
  exact .some ⟨rfl, shows.environment, shows.written⟩

/-- Two repetitions in turn show what one repetition as often as both shows. -/
theorem repeated_showsSame_add (machine : Machine) {first second : Nat}
    (fits : first + second < 0x8000000000000000) (body : Expr) (state : State) :
    Option.Rel Ending.ShowsSame
      (((machine.evaluate (.repeated first body)).bind fun _ =>
        machine.evaluate (.repeated second body)) state)
      (machine.evaluate (.repeated (first + second) body) state) := by
  by_cases room : state.depth < machine.limit
  · have firstFits : first < 0x8000000000000000 := by omega
    have secondFits : second < 0x8000000000000000 := by omega
    have firstDone := congrFun (machine.evaluate_repeated firstFits body) state
    rw [Action.nested_announce room] at firstDone
    rw [machine.evaluate_repeated fits, Action.nested_announce room, Action.times_add,
      Action.bind_assoc]
    have start : State.Besides (state.depth + 1) (state.depth + 1) (state.opened .repeatTimes)
        (state.opened .repeatTimes) := ⟨rfl, rfl, rfl, rfl⟩
    obtain ⟨unended, _⟩ | ⟨error | _, after, _, ended, _, _, level, _⟩ :=
      machine.times_showsSame body first start
    · rw [Action.bind_of_none unended] at firstDone
      rw [Action.bind_of_none firstDone, Action.bind_of_none unended]
      exact .none
    · rw [Action.bind_of_error ended] at firstDone
      rw [Action.bind_of_error firstDone, Action.bind_of_error ended]
      exact .some ⟨rfl, rfl, rfl⟩
    · rw [Action.bind_of_ok ended] at firstDone
      rw [Action.bind_of_ok firstDone, Action.bind_of_ok ended]
      -- The second repetition starts where the first one is closed.
      have closed : (after.withDepth (after.depth - 1)).depth = state.depth := by
        show after.depth - 1 = state.depth
        rw [level, Nat.add_sub_cancel]
      have besides : State.Besides (state.depth + 1) (state.depth + 1)
          ((after.withDepth (after.depth - 1)).opened .repeatTimes) after :=
        ⟨congrArg (· + 1) closed, level, rfl, rfl⟩
      rw [machine.evaluate_repeated secondFits, Action.nested_announce (closed ▸ room)]
      exact machine.times_bind_showsSame body second besides fun _ _ shows _ =>
        .some ⟨rfl, shows.environment, shows.written⟩
  · have full := Nat.not_lt.mp room
    have cut (count : Nat) : machine.evaluate (.repeated count body) state =
        some ⟨.error (.depthExceeded machine.limit), state⟩ := by
      rw [Expr.repeated, Expr.form, evaluate_list, Action.nested_of_le _ full]
    rw [Action.bind_of_error (cut first), cut]
    exact .some ⟨rfl, rfl, rfl⟩

/-! ## Endings -/

/-- Evaluations with one of these conditions on their endings end and show the same
exactly when those with the other one do. -/
def EndAlike (ends otherEnds : Ending Value → Prop) : Prop :=
  (∀ ending, ends ending → ∃ other, otherEnds other ∧ ending.ShowsSame other) ∧
    ∀ other, otherEnds other → ∃ ending, ends ending ∧ ending.ShowsSame other

/-- The first expression fails so, or it has a value and the second one, evaluated
after it, ends so. -/
def EndsInTurn (arithmetic : Arithmetic) (memory : Memory) (limit : Nat) (first second : Expr)
    (state : State) (ending : Ending Value) : Prop :=
  (∃ error after, Ends arithmetic memory limit first state ⟨.error error, after⟩ ∧
    ending = ⟨.error error, after⟩) ∨
  ∃ value after, Ends arithmetic memory limit first state ⟨.ok value, after⟩ ∧
    Ends arithmetic memory limit second after ending

/-- Expressions end in turn exactly when their evaluations end as one sequence, with enough passes
for both. -/
theorem endsInTurn_iff {first second : Expr} {ending : Ending Value} :
    EndsInTurn arithmetic memory limit first second state ending ↔
      ∃ passes, (((⟨arithmetic, memory, limit, passes⟩ : Machine).evaluate first).bind fun _ =>
        (⟨arithmetic, memory, limit, passes⟩ : Machine).evaluate second) state = some ending := by
  constructor
  · rintro (⟨error, after, ⟨passes, ended⟩, rfl⟩ | ⟨value, after, ends, endsAfter⟩)
    · exact ⟨passes, Action.bind_of_error ended _⟩
    · obtain ⟨enough, ended⟩ := ends.eventually
      obtain ⟨enoughAfter, endedAfter⟩ := endsAfter.eventually
      have first := ended _ (Nat.le_max_left enough enoughAfter)
      exact ⟨_, (Action.bind_of_ok first _).trans (endedAfter _ (Nat.le_max_right _ _))⟩
  · rintro ⟨passes, ended⟩
    obtain ⟨error, after, found, same⟩ | ⟨value, after, found, later⟩ :=
      Action.ending_of_bind ended
    · exact .inl ⟨error, after, ⟨passes, found⟩, same⟩
    · exact .inr ⟨value, after, ⟨passes, found⟩, ⟨passes, later⟩⟩

/-- Evaluations that show the same with every number of passes end alike. -/
theorem endAlike_of_showsSame {actions others : Nat → Action Value}
    (showsSame : ∀ passes,
      Option.Rel Ending.ShowsSame (actions passes state) (others passes state)) :
    EndAlike (fun ending => ∃ passes, actions passes state = some ending)
      (fun ending => ∃ passes, others passes state = some ending) := by
  refine ⟨fun ending ⟨passes, ended⟩ => ?_, fun other ⟨passes, ended⟩ => ?_⟩
  all_goals
    have same := showsSame passes
    rw [ended] at same
  · generalize found : others passes state = otherEnded at same
    obtain same | _ := same
    exact ⟨_, ⟨passes, found⟩, same⟩
  · generalize found : actions passes state = otherEnded at same
    obtain same | _ := same
    exact ⟨_, ⟨passes, found⟩, same⟩

/-- A repetition has a value exactly when as many copies of its body have one, in order. -/
theorem ends_repeated_iff {value : Value} {final : State} (fits : count < 0x8000000000000000) :
    Ends arithmetic memory limit (.repeated count body) state ⟨.ok value, final⟩ ↔
      state.depth < limit ∧ value = .nothing ∧ ∃ after,
        Completes arithmetic memory limit (List.replicate count body)
          (state.opened .repeatTimes) after ∧
        final = after.withDepth state.depth := by
  rw [Expr.repeated, ends_effect_iff fun passes => evaluate_repeated _ fits body]
  refine and_congr_right fun _ => and_congr_right fun _ => ⟨?_, ?_⟩
  · rintro ⟨passes, after, done, same⟩
    rw [← runEach_replicate] at done
    exact ⟨after, completes_of_runEach done, same⟩
  · rintro ⟨after, completes, same⟩
    obtain ⟨enough, done⟩ := completes.runEach
    have repeated := done enough (Nat.le_refl _)
    rw [runEach_replicate] at repeated
    exact ⟨enough, after, repeated, same⟩

/-- A body that is repeated does what as many copies of it do in order, if the limit
leaves room for a form behind them: one ends exactly when the other one does, and both
show the same. A repetition has a value exactly when so many evaluations of the body in
order have one, and it is nothing. Two repetitions of one body in turn do what one
repetition does that is as long as both. -/
theorem repetitions_can_be_written_out (arithmetic : Arithmetic) (memory : Memory) (limit : Nat)
    (body : Expr) (state : State) :
    (∀ count, count < 0x8000000000000000 →
      (state.depth + 2 ≤ limit →
        EndAlike (Ends arithmetic memory limit (.repeated count body) state)
          (Ends arithmetic memory limit (.copies count body) state)) ∧
      ∀ value final, Ends arithmetic memory limit (.repeated count body) state ⟨.ok value, final⟩ ↔
        state.depth < limit ∧ value = .nothing ∧ ∃ after,
          Completes arithmetic memory limit (List.replicate count body) (state.opened .repeatTimes)
            after ∧
          final = after.withDepth state.depth) ∧
    ∀ first second, first + second < 0x8000000000000000 →
      EndAlike
        (EndsInTurn arithmetic memory limit (.repeated first body) (.repeated second body) state)
        (Ends arithmetic memory limit (.repeated (first + second) body) state) := by
  refine ⟨fun count fits => ⟨fun room => ?_, fun value final => ends_repeated_iff fits⟩,
    fun first second fits => ?_⟩
  · exact endAlike_of_showsSame fun passes =>
      repeated_showsSame_copies ⟨arithmetic, memory, limit, passes⟩ fits room
  · let actions (passes : Nat) : Action Value :=
      let machine : Machine := ⟨arithmetic, memory, limit, passes⟩
      (machine.evaluate (.repeated first body)).bind fun _ =>
        machine.evaluate (.repeated second body)
    have inTurn : EndsInTurn arithmetic memory limit (.repeated first body)
        (.repeated second body) state =
        fun ending => ∃ passes, actions passes state = some ending :=
      funext fun ending => propext endsInTurn_iff
    rw [inTurn]
    exact endAlike_of_showsSame fun passes =>
      repeated_showsSame_add ⟨arithmetic, memory, limit, passes⟩ fits body state

/-- A variable is counted up until it is the largest integer, which happens in the first
of three rounds. So the second one fails, however the rounds are written. -/
theorem repetitions_can_be_written_out_failing :
    let body := Expr.form "set" [.str "x", .form "add" [.form "get" [.str "x"], .int 1]]
    let state : State := ⟨.ofList [("x", .int 9223372036854775806)], .unlimited, #[], 0⟩
    3 < 0x8000000000000000 ∧ state.depth + 2 ≤ 4 ∧
    ∃ ending other inTurn, Ends .word64 (.below 16) 4 (.repeated 3 body) state ending ∧
      ending.result = .error (.arithmeticTrap (.add 9223372036854775807 1)) ∧
      Ends .word64 (.below 16) 4 (.copies 3 body) state other ∧ ending.ShowsSame other ∧
      EndsInTurn .word64 (.below 16) 4 (.repeated 1 body) (.repeated 2 body) state inTurn ∧
      inTurn.ShowsSame ending ∧
      ∃ after, Completes .word64 (.below 16) 4 (List.replicate 1 body)
        (state.opened .repeatTimes) after := by
  intro body state
  have computedOnce : (Machine.evaluate ⟨.word64, .below 16, 4, 0⟩ (.repeated 1 body) state).map
      Ending.result = some (.ok .nothing) := by decide +kernel
  have computed : (Machine.evaluate ⟨.word64, .below 16, 4, 0⟩ (.repeated 3 body) state).map
      Ending.result = some (.error (.arithmeticTrap (.add 9223372036854775807 1))) := by
    decide +kernel
  obtain ⟨_, once⟩ := exists_ends_of_result computedOnce
  obtain ⟨_, ends⟩ := exists_ends_of_result computed
  obtain ⟨written, added⟩ := repetitions_can_be_written_out .word64 (.below 16) 4 body state
  obtain ⟨other, otherEnds, same⟩ := ((written 3 (by decide)).1 (by decide)).1 _ ends
  obtain ⟨inTurn, endsInTurn, sameInTurn⟩ := (added 1 2 (by decide)).2 _ ends
  obtain ⟨_, _, after, completes, _⟩ := ((written 1 (by decide)).2 _ _).mp once
  exact ⟨by decide, by decide, _, other, inTurn, ends, rfl, otherEnds, same, endsInTurn, sameInTurn,
    after, completes⟩

end Machine

end JsonForms
