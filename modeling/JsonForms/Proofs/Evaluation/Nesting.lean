import JsonForms.Proofs.Evaluation.Depth

/-!
# The limit and the nesting of programs

How many forms an evaluation opens in each other is bounded by how many lists lie
in each other in its program. So a program that fits under the limit never exceeds
it, however often its loops run. The bound cannot be improved: forms that only
hand on the value of their operand are opened one inside the other, and the first
one that does not fit exceeds the limit.
-/

namespace JsonForms

/-- The value of an expression that stands for itself. -/
def Expr.scalar? : Expr → Option Value
  | .int value => some (.int value.toInt)
  | .str text => some (.str text)
  | .bool value => some (.bool value)
  | .list _ => none

/-- An expression inside so many forms, each of which has the value of its operand. -/
def Expr.wrapped (expr : Expr) : Nat → Expr
  | 0 => expr
  | layers + 1 => .form Operation.seq.name [expr.wrapped layers]

namespace Machine

/-- What becomes of a value inside so many forms that are opened in a state. -/
def outcome (machine : Machine) (value : Value) (layers : Nat) (state : State) :
    Except EvalError Value :=
  if layers = 0 ∨ state.depth + layers ≤ machine.limit then .ok value
  else .error (.depthExceeded machine.limit)

/-- A scalar has its value in every state and changes nothing. -/
theorem evaluate_scalar (machine : Machine) {scalar : Expr} {value : Value}
    (stands : scalar.scalar? = some value) (state : State) :
    machine.evaluate scalar state = some ⟨.ok value, state⟩ := by
  cases scalar with
  | list => cases stands
  | int | str | bool =>
      cases stands
      rw [evaluate]

/-- A form of one operand opens, evaluates it and closes. -/
theorem evaluate_wrapped_succ (machine : Machine) {state : State}
    (room : state.depth < machine.limit) (expr : Expr) (layers : Nat) :
    machine.evaluate (expr.wrapped (layers + 1)) state =
      (machine.evaluate (expr.wrapped layers) (state.opened .seq)).map Ending.closed := by
  have opened := machine.evaluate_seq room (expr.wrapped layers) []
  rw [operands] at opened
  exact opened

/-- The limit decides about a wrapped scalar, and nothing else does. -/
theorem evaluate_wrapped (machine : Machine) {scalar : Expr} {value : Value}
    (stands : scalar.scalar? = some value) (layers : Nat) (state : State) :
    ∃ final, machine.evaluate (scalar.wrapped layers) state =
      some ⟨machine.outcome value layers state, final⟩ := by
  induction layers generalizing state with
  | zero =>
      rw [Expr.wrapped, evaluate_scalar machine stands, outcome, if_pos (.inl rfl)]
      exact ⟨state, rfl⟩
  | succ layers inductionHypothesis =>
      by_cases room : state.depth < machine.limit
      · obtain ⟨final, inside⟩ := inductionHypothesis (state.opened .seq)
        have same : machine.outcome value layers (state.opened .seq) =
            machine.outcome value (layers + 1) state := by
          have level : (state.opened .seq).depth = state.depth + 1 := rfl
          rw [outcome, outcome, level]
          exact if_congr (by omega) rfl rfl
        rw [machine.evaluate_wrapped_succ room, inside, same]
        exact ⟨_, rfl⟩
      · have full := Nat.not_lt.mp room
        have refused : ¬ (layers + 1 = 0 ∨ state.depth + (layers + 1) ≤ machine.limit) := by omega
        rw [Expr.wrapped, Expr.form, evaluate_list, Action.nested_of_le _ full, outcome,
          if_neg refused]
        exact ⟨state, rfl⟩

/-- An evaluation whose program fits under the limit, counting from the forms that
are open already, does not exceed it. A scalar inside so many forms has its value
exactly when there are none or they fit, and exceeds the limit otherwise. -/
theorem limit_admits_what_fits (arithmetic : Arithmetic) (memory : Memory) (limit : Nat)
    (state : State) :
    (∀ program, state.depth + program.nesting ≤ limit → ∀ ending,
      Ends arithmetic memory limit program state ending →
        ∀ exceeded, ending.result ≠ .error (.depthExceeded exceeded)) ∧
    ∀ (scalar : Expr) (value : Value) (layers : Nat), scalar.scalar? = some value →
      ((∃ final, Ends arithmetic memory limit (scalar.wrapped layers) state ⟨.ok value, final⟩) ↔
        layers = 0 ∨ state.depth + layers ≤ limit) ∧
      (¬ (layers = 0 ∨ state.depth + layers ≤ limit) →
        ∃ final, Ends arithmetic memory limit (scalar.wrapped layers) state
          ⟨.error (.depthExceeded limit), final⟩) := by
  refine ⟨fun program fits ending ends exceeded cut => ends.not_isCut fits ⟨exceeded, cut⟩,
    fun scalar value layers stands => ?_⟩
  obtain ⟨final, evaluated⟩ := evaluate_wrapped ⟨arithmetic, memory, limit, 0⟩ stands layers state
  have ends : Ends arithmetic memory limit (scalar.wrapped layers) state _ := ⟨0, evaluated⟩
  by_cases fits : layers = 0 ∨ state.depth + layers ≤ limit
  · rw [outcome, if_pos fits] at ends
    exact ⟨⟨fun _ => fits, fun _ => ⟨final, ends⟩⟩, fun exceeds => absurd fits exceeds⟩
  · rw [outcome, if_neg fits] at ends
    refine ⟨⟨fun ⟨_, succeeds⟩ => ?_, fun some => absurd some fits⟩, fun _ => ⟨final, ends⟩⟩
    cases ends.unique succeeds

/-- A loop that runs three times fits under a limit of two. A string inside two
forms fits too, and inside three forms it does not. -/
theorem limit_admits_what_fits_two :
    let program := Expr.form "repeat" [.int 3, .form "seq" [.str "a"]]
    let state : State := ⟨.empty, .unlimited, #[], 0⟩
    state.depth + program.nesting ≤ 2 ∧
    (∃ ending, Ends .word64 (.below 16) 2 program state ending ∧
      ∀ exceeded, ending.result ≠ .error (.depthExceeded exceeded)) ∧
    (Expr.str "a").scalar? = some (.str "a") ∧
    (∃ final, Ends .word64 (.below 16) 2 ((Expr.str "a").wrapped 2) state ⟨.ok (.str "a"), final⟩) ∧
    ∃ final, Ends .word64 (.below 16) 2 ((Expr.str "a").wrapped 3) state
      ⟨.error (.depthExceeded 2), final⟩ := by
  intro program state
  obtain ⟨neverCut, wrapped⟩ := limit_admits_what_fits .word64 (.below 16) 2 state
  have three : (Expr.int 3).count? = some 3 := by decide
  have ends : Ends .word64 (.below 16) 2 program state ⟨.ok .nothing, ⟨.empty, .unlimited,
      #[.dispatch .repeatTimes 1, .dispatch .seq 2, .dispatch .seq 2, .dispatch .seq 2], 0⟩⟩ :=
    ⟨0, (evaluate_repeat _ (by decide) three _).trans rfl⟩
  exact ⟨by decide, ⟨_, ends, neverCut program (by decide) _ ends⟩, rfl,
    (wrapped _ _ 2 rfl).1.mpr (by decide), (wrapped _ _ 3 rfl).2 (by decide)⟩

end Machine

end JsonForms
