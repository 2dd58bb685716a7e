import JsonForms.Program
import JsonForms.Proofs.Evaluation.Depth
import JsonForms.Proofs.Evaluation.Values

/-!
# Flat values

The only operation that makes an array fills it with nothing, and no operation
puts a value into a slot. So arrays stay empty through every session: no program
makes an array that has an array, a string, an integer or a truth value in it.
-/

namespace JsonForms

namespace Value

/-- The value is no array, or all slots of the array are empty. -/
def IsFlat : Value → Prop
  | .array slots => ∀ slot ∈ slots, slot = .nothing
  | .int _ | .str _ | .bool _ | .nothing => True

/-- A computed integer is no array. -/
theorem isFlat_of_checked {arithmetic : Arithmetic} {number : Int} {otherwise : Overflow}
    {result : Value} (computed : arithmetic.checked number otherwise = .ok result) :
    result.IsFlat := by
  rw [Arithmetic.checked] at computed
  split at computed <;> cases computed
  trivial

/-- What is made and computed is flat. -/
theorem isFlat_closed (arithmetic : Arithmetic) : Closed arithmetic IsFlat where
  int _ := trivial
  str _ := trivial
  bool _ := trivial
  slots _ _ member := List.eq_of_mem_replicate member
  nothing := trivial
  abs {value result} _ computed := by
    cases value with
    | int operand => exact isFlat_of_checked computed
    | str | bool | array | nothing => cases computed
  add {left right result} _ _ computed := by
    unfold Arithmetic.add at computed
    split at computed
    · exact isFlat_of_checked computed
    · cases computed
      trivial
    · cases computed

end Value

namespace Machine

/-! ## Printed values -/

/-- Printing operands one after another comes to print a value. The values before
it have been printed. -/
inductive PrintsAmong (arithmetic : Arithmetic) (memory : Memory) (limit : Nat) :
    List Expr → State → Value → Prop where
  | first {operand : Expr} {following : List Expr} {state after : State} {value : Value}
      (ends : Ends arithmetic memory limit operand state ⟨.ok value, after⟩) :
      PrintsAmong arithmetic memory limit (operand :: following) state value
  | later {operand : Expr} {following : List Expr} {state middle after : State}
      {before value : Value}
      (ends : Ends arithmetic memory limit operand state ⟨.ok before, middle⟩)
      (written : Action.writeLine before middle = some ⟨.ok (), after⟩)
      (prints : PrintsAmong arithmetic memory limit following after value) :
      PrintsAmong arithmetic memory limit (operand :: following) state value

/-- The evaluation of a program comes to print a value: it comes to a form that
prints and can be opened, and there to the value. -/
def Prints (arithmetic : Arithmetic) (memory : Memory) (limit : Nat) (program : Expr)
    (state : State) (value : Value) : Prop :=
  ∃ operands there,
    Visits arithmetic memory limit program state (.form Operation.print.name operands) there ∧
      there.depth < limit ∧
        PrintsAmong arithmetic memory limit operands (there.opened .print) value

variable {arithmetic : Arithmetic} {memory : Memory} {limit : Nat} {state : State} {value : Value}

/-- A value that is come to is the next that is written. -/
theorem PrintsAmong.writes {operands : List Expr}
    (prints : PrintsAmong arithmetic memory limit operands state value) :
    ∃ following after enough, ∀ passes, enough ≤ passes →
      Operand.printEach (Machine.operands ⟨arithmetic, memory, limit, passes⟩ operands) state =
        ((Action.writeLine value).bind fun _ =>
          Operand.printEach (Machine.operands ⟨arithmetic, memory, limit, passes⟩ following))
            after := by
  induction prints with
  | @first operand following state after value ends =>
      obtain ⟨enough, ended⟩ := ends.eventually
      refine ⟨following, after, enough, fun passes more => ?_⟩
      rw [Machine.operands]
      exact Action.bind_of_ok (ended passes more) _
  | @later operand _ state middle next before value ends written _ inductionHypothesis =>
      obtain ⟨enough, ended⟩ := ends.eventually
      obtain ⟨following, after, enoughLater, same⟩ := inductionHypothesis
      refine ⟨following, after, max enough enoughLater, fun passes more => ?_⟩
      have evaluated := ended passes (Nat.le_trans (Nat.le_max_left _ _) more)
      have later := same passes (Nat.le_trans (Nat.le_max_right _ _) more)
      rw [Machine.operands]
      exact ((Action.bind_of_ok evaluated _).trans (Action.bind_of_ok written _)).trans later

variable {program : Expr}

/-- A form that comes to print a value does so: it writes the value when it has
evaluated and printed what stands before. -/
theorem Prints.writes (prints : Prints arithmetic memory limit program state value) :
    ∃ operands there following after enough,
      Visits arithmetic memory limit program state (.form Operation.print.name operands) there ∧
      ∀ passes, enough ≤ passes →
        Machine.evaluate ⟨arithmetic, memory, limit, passes⟩
          (.form Operation.print.name operands) there =
          ((((Action.writeLine value).bind fun _ =>
            Operand.printEach (Machine.operands ⟨arithmetic, memory, limit, passes⟩ following)).bind
              fun _ => Action.pure .nothing) after).map Ending.closed := by
  obtain ⟨operands, there, visits, room, among⟩ := prints
  obtain ⟨following, after, enough, same⟩ := among.writes
  refine ⟨operands, there, following, after, enough, visits, fun passes more => ?_⟩
  rw [evaluate_print _ room]
  exact congrArg (Option.map Ending.closed) (Action.bind_congr (same passes more) _)

variable {Admits : Value → Prop}

/-- What is printed among operands is admitted when all values are. -/
theorem PrintsAmong.admitted {operands : List Expr}
    (prints : PrintsAmong arithmetic memory limit operands state value)
    (closed : Value.Closed arithmetic Admits)
    (all : state.environment.All Admits) : Admits value := by
  induction prints with
  | first ends => exact (ends.admitted closed all).2 _ rfl
  | @later _ _ state middle after before _ ends written _ inductionHypothesis =>
      have allBetween := (ends.admitted closed all).1
      have kept := (Action.supplies_writeLine before middle allBetween).2 _ written
      exact inductionHypothesis kept.1

/-- What a program prints is admitted when all values are. -/
theorem Prints.admitted (prints : Prints arithmetic memory limit program state value)
    (closed : Value.Closed arithmetic Admits) (all : state.environment.All Admits) :
    Admits value := by
  obtain ⟨_, there, visits, _, among⟩ := prints
  have opened : (there.opened .print).environment.All Admits := visits.admitted closed all
  exact among.admitted closed opened

end Machine

namespace Session

/-- The second session comes from the first one by evaluations that end, with a
value or with an error. -/
inductive Evaluates : Session → Session → Prop where
  | refl (session : Session) : Evaluates session session
  | evaluated {first session : Session} {program : Expr} {ending : Ending Value}
      (before : Evaluates first session)
      (ends : Machine.Ends .word64 session.memory session.limit program session.state ending) :
      Evaluates first { session with state := ending.state }

/-- An evaluation by the session is one more evaluation. -/
theorem Evaluates.evaluate {first session next : Session} {program : Expr}
    {result : Except EvalError Value} (before : first.Evaluates session)
    (evaluated : session.evaluate program = some (result, next)) : first.Evaluates next := by
  obtain ⟨ending, ended, same⟩ := Option.map_eq_some_iff.mp evaluated
  cases same
  exact .evaluated before ⟨amplePasses, ended⟩

/-- Evaluations of a session leave admitted variables. -/
theorem Evaluates.admitted {Admits : Value → Prop} {first session : Session}
    (evaluates : first.Evaluates session) (closed : Value.Closed .word64 Admits)
    (all : first.state.environment.All Admits) : session.state.environment.All Admits := by
  induction evaluates with
  | refl => exact all
  | evaluated _ ends inductionHypothesis => exact (ends.admitted closed inductionHypothesis).1

/-- From variables with flat values, a session has flat values only, whatever
programs it has evaluated before and however these have ended. The variables have
flat values between evaluations, wherever an evaluation comes to and in whatever
state it ends; the values of programs and of all their parts are flat; and so is
every value that is printed. -/
theorem reachable_values_are_flat [Memory] (environment : Environment) (sink : Sink) (limit : Nat)
    (flat : environment.All Value.IsFlat) {session : Session}
    (evaluates : (start environment sink limit).Evaluates session) (program : Expr) :
    session.state.environment.All Value.IsFlat ∧
    (∀ ending, Machine.Ends .word64 session.memory session.limit program session.state ending →
      ending.state.environment.All Value.IsFlat ∧
        ∀ value, ending.result = .ok value → value.IsFlat) ∧
    (∀ part there,
      Machine.Visits .word64 session.memory session.limit program session.state part there →
      there.environment.All Value.IsFlat ∧
        ∀ value after,
          Machine.Ends .word64 session.memory session.limit part there ⟨.ok value, after⟩ →
            value.IsFlat) ∧
    ∀ value, Machine.Prints .word64 session.memory session.limit program session.state value →
      value.IsFlat := by
  have closed := Value.isFlat_closed .word64
  have all := evaluates.admitted closed flat
  refine ⟨all, fun ending ends => ends.admitted closed all, fun part there visits => ?_,
    fun value prints => prints.admitted closed all⟩
  have reached := visits.admitted closed all
  exact ⟨reached, fun value after ends => (ends.admitted closed reached).2 value rfl⟩

/-- An array that is set before a program fails, and printed by the next one. -/
theorem reachable_values_are_flat_printed :
    let failing := Expr.form "seq" [.form "set" [.str "a", .form "array" [.int 2]],
      .form "get" [.str "b"]]
    let printing := Expr.form "print" [.form "get" [.str "a"]]
    let array := Value.array [.nothing, .nothing]
    ∃ session, (@start (.below 16) .empty .unlimited 3).evaluate failing =
        some (.error (.undefinedVariable "b"), session) ∧
      session.get? "a" = some array ∧ session.state.environment.All Value.IsFlat ∧
      Machine.Prints .word64 (.below 16) 3 printing session.state array ∧ array.IsFlat := by
  intro failing printing array
  let session : Session := ⟨.below 16, 3, ⟨Environment.empty.set "a" array, .unlimited,
    #[.dispatch .seq 1, .dispatch .set 2, .dispatch .array 3, .set "a" array,
      .dispatch .get 2], 0⟩⟩
  have evaluated : (@start (.below 16) .empty .unlimited 3).evaluate failing =
      some (.error (.undefinedVariable "b"), session) := rfl
  have evaluates := (Evaluates.refl _).evaluate evaluated
  have prints : Machine.Prints .word64 (.below 16) 3 printing session.state array :=
    ⟨_, _, Machine.reaches_start ⟨rfl, rfl⟩, by decide, .first ⟨0, rfl⟩⟩
  obtain ⟨all, _, _, printed⟩ :=
    @reachable_values_are_flat (.below 16) .empty .unlimited 3 Environment.all_empty _ evaluates
      printing
  exact ⟨session, evaluated, rfl, all, prints, printed array prints⟩

end Session

/-- The value of a source is flat. -/
theorem Run.isFlat_of_ofSource [Memory] {source : Source} {sink : Sink} {limit : Nat} {run : Run}
    {value : Value} (ran : Run.ofSource source sink limit = some run)
    (result : run.result = .ok value) : value.IsFlat := by
  unfold ofSource at ran
  split at ran
  · cases ran
    cases result
  next program _ =>
    obtain ⟨⟨outcome, session⟩, evaluated, same⟩ := Option.map_eq_some_iff.mp ran
    have ends := Session.ends_of_evaluate evaluated
    cases outcome with
    | error =>
        cases same
        cases result
    | ok found =>
        cases same
        cases result
        exact (ends.admitted (Value.isFlat_closed _) Environment.all_empty).2 _ rfl

end JsonForms
