import JsonForms.Proofs.Evaluation.Congruence

/-!
# Ending whatever the passes

The number of passes bounds loops so that evaluation is a function. It is no
part of what a program means: more passes never change how an evaluation ends,
so `Machine.Ends` leaves them out.
-/

namespace JsonForms

/-- Whenever the first action ends, the second one ends alike. -/
def Action.Kept {α : Type} (first second : Action α) : Prop :=
  ∀ state ending, first state = some ending → second state = some ending

namespace Action

/-- Every action keeps its endings. -/
theorem Kept.refl {α : Type} (action : Action α) : action.Kept action :=
  fun _ _ ended => ended

/-- The endings of a sequence are kept when those of its actions are. -/
theorem Kept.bind {α β : Type} {first second : Action α} {next after : α → Action β}
    (kept : first.Kept second) (keptNext : ∀ value, (next value).Kept (after value)) :
    (first.bind next).Kept (second.bind after) := by
  intro state ending ended
  obtain ⟨error, middle, found, rfl⟩ | ⟨value, middle, found, ended⟩ := ending_of_bind ended
  · exact bind_of_error (kept _ _ found) after
  · rw [bind_of_ok (kept _ _ found)]
    exact keptNext value _ _ ended

/-- Keeping endings is kept by sequencing. -/
theorem kept_sequential : Sequential Kept where
  pure _ := Kept.refl _
  bind := Kept.bind

/-- Endings that are kept inside a form are those of the form. -/
theorem Kept.nested {α : Type} {inner other : Action α} (kept : inner.Kept other)
    (limit : Nat) : (nested limit inner).Kept (nested limit other) := by
  intro state ending ended
  obtain ⟨result, after, room, innerEnded, rfl⟩ | ⟨full, rfl⟩ := ending_of_nested ended
  · exact nested_of_lt room (kept _ _ innerEnded)
  · exact nested_of_le other full

/-- A loop ends alike when it may test its condition more often. -/
theorem Kept.loop {test condition : Action Value} {body block : Action Unit}
    (keptTest : test.Kept condition) (keptBody : body.Kept block) {few many : Nat}
    (more : few ≤ many) : (loop test body few).Kept (loop condition block many) := by
  induction few generalizing many with
  | zero => exact fun _ _ ended => nomatch ended
  | succ few inductionHypothesis =>
      obtain ⟨many, rfl⟩ : ∃ rest, many = rest + 1 := ⟨many - 1, by omega⟩
      refine Kept.bind keptTest fun value => ?_
      split
      · exact Kept.bind keptBody fun _ => inductionHypothesis (by omega)
      · exact Kept.refl _

end Action

namespace Machine

variable {arithmetic : Arithmetic} {memory : Memory} {limit : Nat} {expr : Expr} {state : State}

/-- More passes keep the endings of opened lists. -/
theorem kept_congruence {few many : Nat} (more : few ≤ many) :
    Congruence ⟨arithmetic, memory, limit, few⟩ ⟨arithmetic, memory, limit, many⟩ Action.Kept where
  toSequential := Action.kept_sequential
  sameMemory := rfl
  fail _ := Action.Kept.refl _
  nested kept := kept.nested limit
  announce _ := Action.Kept.refl _
  lookup _ := Action.Kept.refl _
  assign _ _ := Action.Kept.refl _
  writeLine _ := Action.Kept.refl _
  abs _ := Action.Kept.refl _
  add _ _ := Action.Kept.refl _
  loop keptTest keptBody := keptTest.loop keptBody more

/-- More passes never change an ending. -/
theorem evaluate_of_le {few many : Nat} {ending : Ending Value} (more : few ≤ many)
    (ended : (⟨arithmetic, memory, limit, few⟩ : Machine).evaluate expr state = some ending) :
    (⟨arithmetic, memory, limit, many⟩ : Machine).evaluate expr state = some ending :=
  (kept_congruence more).evaluate expr state ending ended

/-- The evaluation of an expression ends so, with enough passes for its loops. -/
def Ends (arithmetic : Arithmetic) (memory : Memory) (limit : Nat) (expr : Expr) (state : State)
    (ending : Ending Value) : Prop :=
  ∃ passes, (⟨arithmetic, memory, limit, passes⟩ : Machine).evaluate expr state = some ending

/-- An evaluation with some number of passes that has a result ends with that result. -/
theorem exists_ends_of_result {passes : Nat} {result : Except EvalError Value}
    (computed : ((⟨arithmetic, memory, limit, passes⟩ : Machine).evaluate expr state).map
      Ending.result = some result) :
    ∃ after, Ends arithmetic memory limit expr state ⟨result, after⟩ := by
  obtain ⟨⟨_, after⟩, ended, rfl⟩ := Option.map_eq_some_iff.mp computed
  exact ⟨after, passes, ended⟩

/-- An ended evaluation ends so with all larger numbers of passes. -/
theorem Ends.eventually {ending : Ending Value}
    (ends : Ends arithmetic memory limit expr state ending) :
    ∃ enough, ∀ passes, enough ≤ passes →
      (⟨arithmetic, memory, limit, passes⟩ : Machine).evaluate expr state = some ending := by
  obtain ⟨enough, ended⟩ := ends
  exact ⟨enough, fun passes more => evaluate_of_le more ended⟩

/-- An evaluation has one ending at most. -/
theorem Ends.unique {first second : Ending Value}
    (one : Ends arithmetic memory limit expr state first)
    (other : Ends arithmetic memory limit expr state second) : first = second := by
  obtain ⟨enough, ended⟩ := one.eventually
  obtain ⟨more, endedAgain⟩ := other.eventually
  have same := ended (max enough more) (Nat.le_max_left _ _)
  rw [endedAgain _ (Nat.le_max_right _ _)] at same
  cases same
  rfl

end Machine

end JsonForms
