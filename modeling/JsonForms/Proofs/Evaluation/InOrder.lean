import JsonForms.Proofs.Evaluation.Abreast
import JsonForms.Proofs.Evaluation.Assignments
import JsonForms.Proofs.Evaluation.Depth
import JsonForms.Proofs.Evaluation.LimitedOutput

/-!
# Programs in order

Programs can be evaluated one after another in one session, each from what the one
before it left, or each by itself against the variables that it is handed and
hands back, or as the operands of one form. These are three ways of doing the
same, up to the first program that fails and including it.
-/

namespace JsonForms

/-- Evaluates programs in order, each from what the one before it left, up to the
first one that fails or does not end: the result of the last one that is
evaluated, and what it left. -/
def inOrder {σ : Type} (evaluate : σ → Expr → Option (Except EvalError Value × σ)) (start : σ)
    (program : Expr) : List Expr → Option (Except EvalError Value × σ)
  | [] => evaluate start program
  | next :: following =>
      match evaluate start program with
      | some (.ok _, after) => inOrder evaluate after next following
      | ending => ending

/-- What every evaluation keeps is kept by evaluations in order. -/
theorem inOrder_keeps {σ : Type} {evaluate : σ → Expr → Option (Except EvalError Value × σ)}
    {Holds : σ → Prop}
    (keeps : ∀ {start program result after}, Holds start →
      evaluate start program = some (result, after) → Holds after)
    {start after : σ} {program : Expr} {following : List Expr} {result : Except EvalError Value}
    (holds : Holds start)
    (ended : inOrder evaluate start program following = some (result, after)) : Holds after := by
  induction following generalizing start program with
  | nil => exact keeps holds ended
  | cons next following inductionHypothesis =>
      rw [inOrder] at ended
      split at ended
      next middle found => exact inductionHypothesis (keeps holds found) ended
      next => exact keeps holds ended

/-- Evaluations in order do the same to a view of a state as to the state, if every
evaluation does. -/
theorem inOrder_view {σ τ : Type} {evaluate : σ → Expr → Option (Except EvalError Value × σ)}
    {other : τ → Expr → Option (Except EvalError Value × τ)} {view : σ → τ} {Holds : σ → Prop}
    (keeps : ∀ {start program result after}, Holds start →
      evaluate start program = some (result, after) → Holds after)
    (same : ∀ {start}, Holds start → ∀ program,
      other (view start) program = (evaluate start program).map (Prod.map id view))
    {start : σ} (holds : Holds start) (program : Expr) (following : List Expr) :
    inOrder other (view start) program following =
      (inOrder evaluate start program following).map (Prod.map id view) := by
  induction following generalizing start program with
  | nil => exact same holds program
  | cons next following inductionHypothesis =>
      rw [inOrder, inOrder, same holds]
      rcases found : evaluate start program with _ | ⟨_ | value, after⟩
      · rfl
      · rfl
      · exact inductionHypothesis (keeps holds found) next

namespace Session

/-- Evaluates a program each of whose loops may test its condition so many times. -/
def evaluateWithin (passes : Nat) (session : Session) (program : Expr) :
    Option (Except EvalError Value × Session) :=
  let machine : Machine := ⟨.word64, session.memory, session.limit, passes⟩
  (machine.evaluate program session.state).map fun ending =>
    (ending.result, { session with state := ending.state })

/-- A session with a memory and under a limit in which no form is open and whose sink takes
everything. -/
structure Ready (memory : Memory) (limit : Nat) (session : Session) : Prop where
  sameMemory : session.memory = memory
  limit : session.limit = limit
  depth : session.state.depth = 0
  unlimited : session.state.sink.room = none

variable {memory : Memory} {passes limit : Nat} {session after : Session} {program : Expr}
  {result : Except EvalError Value}

/-- An evaluation by a session is one of the machine with its memory and its limit, and leaves
both. -/
theorem ends_of_evaluateWithin
    (evaluated : session.evaluateWithin passes program = some (result, after)) :
    after.memory = session.memory ∧ after.limit = session.limit ∧
      Machine.Ends .word64 session.memory session.limit program session.state
        ⟨result, after.state⟩ := by
  obtain ⟨ending, ended, same⟩ := Option.map_eq_some_iff.mp evaluated
  cases same
  exact ⟨rfl, rfl, passes, ended⟩

/-- An evaluation leaves a session ready for the next one. -/
theorem Ready.evaluateWithin (ready : session.Ready memory limit)
    (evaluated : session.evaluateWithin passes program = some (result, after)) :
    after.Ready memory limit := by
  obtain ⟨sameMemory, sameLimit, ends⟩ := ends_of_evaluateWithin evaluated
  exact ⟨sameMemory.trans ready.sameMemory, sameLimit.trans ready.limit,
    ends.depth.trans ready.depth, ends.unlimited ready.unlimited⟩

end Session

/-- Evaluates a program by itself whose loops may test their conditions so many times. -/
def evaluateInWithin [Memory] (passes : Nat) (environment : Environment) (limit : Nat)
    (program : Expr) :
    Option (Except EvalError Value × Environment) :=
  ((Session.start environment .unlimited limit).evaluateWithin passes program).map
    fun (result, session) => (result, session.state.environment)

/-- A program by itself is evaluated from its variables, with nothing printed and no form open. -/
theorem evaluateInWithin_eq [memory : Memory] (passes : Nat) (environment : Environment)
    (limit : Nat) (program : Expr) :
    evaluateInWithin passes environment limit program =
      ((⟨.word64, memory, limit, passes⟩ : Machine).evaluate program
        ⟨environment, .unlimited, #[], 0⟩).map fun ending =>
          (ending.result, ending.state.environment) :=
  Option.map_map ..

namespace Session

variable {memory : Memory} {passes limit : Nat} {session : Session}

/-- An evaluation by itself has the result that it has in a session with the same
variables, and hands back the variables of that session. -/
theorem Ready.evaluateInWithin (ready : session.Ready memory limit) (program : Expr) :
    JsonForms.evaluateInWithin passes session.state.environment limit program =
      (session.evaluateWithin passes program).map
        (Prod.map id fun after => after.state.environment) := by
  obtain ⟨memory, bound, state⟩ := session
  obtain ⟨rfl, rfl, depth, unlimited⟩ := ready
  let machine : Machine := ⟨.word64, memory, bound, passes⟩
  let alone : State := ⟨state.environment, .unlimited, #[], 0⟩
  have begun : State.Abreast 0 state alone state alone :=
    State.abreast_start depth.symm ⟨unlimited.symm, fun limited => absurd unlimited limited⟩
  have agrees : Action.Abreast 0 state alone (machine.evaluate program)
      (machine.evaluate program) :=
    Machine.abreast_evaluate .word64 memory bound passes fun _ _ => rfl
  rw [evaluateInWithin_eq, Session.evaluateWithin, Option.map_map]
  obtain ⟨unended, otherUnended⟩ | ⟨result, after, final, ended, otherEnded, reached, _⟩ :=
    agrees state alone begun
  · rw [unended, otherUnended]
    rfl
  · rw [ended, otherEnded, mapError_deeper_zero]
    have same := reached.environment_eq rfl
    simp [same]

/-- Evaluations in order in a session are the actions of the programs, one after another. -/
theorem inOrder_evaluateWithin (memory : Memory) (passes limit : Nat) (state : State)
    (program : Expr) (following : List Expr) :
    let machine : Machine := ⟨.word64, memory, limit, passes⟩
    inOrder (evaluateWithin passes) ⟨memory, limit, state⟩ program following =
      (Operand.runLast ⟨program, machine.evaluate program⟩ (machine.operands following) state).map
        fun ending => (ending.result, ⟨memory, limit, ending.state⟩) := by
  intro machine
  induction following generalizing state program with
  | nil => rfl
  | cons next following inductionHypothesis =>
      rw [inOrder, Machine.operands, Operand.runLast, evaluateWithin]
      rcases found : machine.evaluate program state with _ | ⟨_ | value, after⟩
      · rw [Action.bind_of_none found]
        rfl
      · rw [Action.bind_of_error found]
        rfl
      · rw [Action.bind_of_ok found]
        exact inductionHypothesis after next

end Session

namespace Machine

/-- Programs in order go abreast with the operands of a form that has been opened. -/
theorem abreast_runLast (arithmetic : Arithmetic) (memory : Memory) (limit passes : Nat)
    (state : State) (program : Expr) (following : List Expr) :
    let machine : Machine := ⟨arithmetic, memory, limit, passes⟩
    let higher : Machine := ⟨arithmetic, memory, limit + 1, passes⟩
    Action.Abreast 1 state (state.opened .seq)
      (Operand.runLast ⟨program, machine.evaluate program⟩ (machine.operands following))
      (Operand.runLast ⟨program, higher.evaluate program⟩ (higher.operands following)) := by
  intro machine higher
  have abreast (expr : Expr) : Action.Abreast 1 state (state.opened .seq) (machine.evaluate expr)
      (higher.evaluate expr) :=
    abreast_evaluate arithmetic memory limit passes fun _ _ => rfl
  have sequenced := (Action.abreast_sequential 1 state (state.opened .seq)).sequenced
  refine sequenced.runLast ⟨rfl, abreast program⟩ ?_
  rw [operands_eq_map, operands_eq_map, List.forall₂_map_left_iff, List.forall₂_map_right_iff,
    List.forall₂_same]
  exact fun expr _ => ⟨rfl, abreast expr⟩

end Machine

namespace Session

variable {memory : Memory} {passes limit : Nat} {session : Session}

/-- One form under a limit that is higher by one has the result of its operands in
order, leaves the same variables and prints the same bytes. -/
theorem Ready.evaluateWithin_seq (ready : session.Ready memory limit) (program : Expr)
    (following : List Expr) :
    (((session.withLimit (limit + 1)).evaluateWithin passes
        (.form Operation.seq.name (program :: following))).map fun (result, after) =>
      (result, after.state.environment, after.state.sink.written)) =
    (inOrder (Session.evaluateWithin passes) session program following).map
      fun (result, after) =>
        (result.mapError (EvalError.deeper 1), after.state.environment,
          after.state.sink.written) := by
  obtain ⟨memory, bound, state⟩ := session
  obtain ⟨rfl, rfl, depth, _⟩ := ready
  have room : state.depth < bound + 1 := by
    rw [depth]
    exact Nat.succ_pos bound
  have begun : State.Abreast 1 state (state.opened .seq) state (state.opened .seq) :=
    State.abreast_start rfl ⟨rfl, fun _ => rfl⟩
  rw [inOrder_evaluateWithin, Session.evaluateWithin, withLimit, Machine.evaluate_seq _ room]
  obtain ⟨unended, otherUnended⟩ | ⟨result, after, final, ended, otherEnded, reached, _⟩ :=
    Machine.abreast_runLast .word64 memory bound passes state program following _ _ begun
  · rw [unended, otherUnended]
    rfl
  · rw [ended, otherEnded]
    have sameVariables := reached.environment_eq rfl
    have sameBytes := reached.written_eq rfl
    simp [Ending.closed, State.withDepth, sameVariables, sameBytes]

/-- Evaluations by themselves hand on the variables of the session. -/
theorem inOrder_evaluateInWithin (ready : session.Ready memory limit) (program : Expr)
    (following : List Expr) :
    inOrder (fun held next => evaluateInWithin passes held limit next) session.state.environment
        program following =
      (inOrder (evaluateWithin passes) session program following).map
        (Prod.map id fun after => after.state.environment) :=
  @inOrder_view _ _ _ _ (fun there => there.state.environment) (Ready memory limit)
    (fun ready => ready.evaluateWithin) (fun ready => ready.evaluateInWithin) _ ready program
    following

/-- The events of evaluations in order account for the variables. -/
theorem accounts_inOrder {program : Expr} {following : List Expr} {result : Except EvalError Value}
    {after : Session}
    (ended : inOrder (evaluateWithin passes) session program following = some (result, after)) :
    ∃ reported, session.state.Accounts after.state reported := by
  refine @inOrder_keeps _ _ (fun there => ∃ reported, session.state.Accounts there.state reported)
    ?_ _ _ _ _ _ ⟨[], session.state.accounts_self⟩ ended
  rintro middle next _ _ ⟨reported, accounts⟩ evaluated
  obtain ⟨more, accountsNext⟩ := (ends_of_evaluateWithin evaluated).2.2.accounts
  exact ⟨reported ++ more, accounts.trans accountsNext⟩

/-- Programs in order have one outcome, whether each of them is evaluated in one
session, or by itself with the variables that the one before it handed back, or
all of them are operands of one form under a limit that is higher by one. What
is handed back at the end, after a failure too, are the variables at the start
after all assignments until then, so nothing that was bound is lost. -/
theorem programs_in_order_agree [Memory] (environment : Environment) (written : ByteArray)
    (refusal : Sink.Refusal) (limit passes : Nat) (program : Expr) (following : List Expr) :
    let session := start environment ⟨written, none, refusal⟩ limit
    let each := inOrder (evaluateWithin passes) session program following
    let alone := inOrder (fun held next => evaluateInWithin passes held limit next) environment
      program following
    let whole := (session.withLimit (limit + 1)).evaluateWithin passes
      (.form Operation.seq.name (program :: following))
    (whole.map fun (result, after) =>
        (result, after.state.environment, after.state.sink.written)) =
      (each.map fun (result, after) =>
        (result.mapError (EvalError.deeper 1), after.state.environment,
          after.state.sink.written)) ∧
    alone = (each.map fun (result, after) => (result, after.state.environment)) ∧
    (∀ result final, alone = some (result, final) →
      ∃ after, each = some (result, after) ∧
        final = environment.replay after.state.events.toList ∧
        ∀ name, (environment.get? name).isSome → (final.get? name).isSome) ∧
    evaluateWithin amplePasses = evaluate ∧ evaluateInWithin amplePasses = evaluateIn := by
  intro session each alone whole
  have ready : session.Ready _ limit := ⟨rfl, rfl, rfl, rfl⟩
  have sameAlone : alone = each.map (Prod.map id fun after => after.state.environment) :=
    inOrder_evaluateInWithin ready program following
  refine ⟨ready.evaluateWithin_seq program following, sameAlone, fun result final ended => ?_,
    rfl, rfl⟩
  rw [sameAlone] at ended
  obtain ⟨⟨_, after⟩, eachEnded, same⟩ := Option.map_eq_some_iff.mp ended
  cases same
  obtain ⟨reported, accounts⟩ := accounts_inOrder eachEnded
  have events : after.state.events.toList = reported := accounts.events
  refine ⟨after, eachEnded, ?_, fun name bound => accounts.isSome_get? bound⟩
  rw [events]
  exact accounts.environment

/-- A variable is set, then another one is looked for in vain, and nothing is printed. -/
theorem programs_in_order_agree_failure :
    let environment := Environment.ofList [("y", .int 1)]
    let session := @start (.below 16) environment .unlimited 2
    let program := Expr.form "set" [.str "x", .str "b"]
    let following := [Expr.form "get" [.str "nope"], Expr.form "print" [.str "never"]]
    let final := environment.set "x" (.str "b")
    inOrder (fun held next => @evaluateInWithin (.below 16) 0 held 2 next) environment program
        following = some (.error (.undefinedVariable "nope"), final) ∧
    (environment.get? "y").isSome ∧ (final.get? "y").isSome ∧
    ∃ after, inOrder (evaluateWithin 0) session program following =
        some (.error (.undefinedVariable "nope"), after) ∧
      final = environment.replay after.state.events.toList ∧
      (((session.withLimit 3).evaluateWithin 0
          (.form Operation.seq.name (program :: following))).map fun (result, whole) =>
        (result, whole.state.environment, whole.state.sink.written)) =
        some (.error (.undefinedVariable "nope"), final, after.state.sink.written) := by
  intro environment session program following final
  have ended : inOrder (fun held next => @evaluateInWithin (.below 16) 0 held 2 next) environment
      program following = some (.error (.undefinedVariable "nope"), final) := rfl
  obtain ⟨wholeAgrees, aloneAgrees, keeps, _⟩ :=
    @programs_in_order_agree (.below 16) environment .empty .full 2 0 program following
  obtain ⟨after, eachEnded, replayed, bound⟩ := keeps _ final ended
  rw [ended, eachEnded] at aloneAgrees
  have same : final = after.state.environment := (Prod.mk.inj (Option.some.inj aloneAgrees)).2
  refine ⟨ended, rfl, bound "y" rfl, after, eachEnded, replayed, wholeAgrees.trans ?_⟩
  rw [eachEnded, same]
  rfl

end Session

end JsonForms
