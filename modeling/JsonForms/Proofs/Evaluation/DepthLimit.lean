import JsonForms.Proofs.Evaluation.History
import JsonForms.Proofs.Evaluation.Passes

/-!
# The depth limit cuts evaluations short

Two evaluations of one expression with different limits do the same until the
lower limit is hit. `Action.Prolongs` is what is kept of this by every step: an
ending that is no cut is shared, and a cut ending is a beginning of whatever the
higher limit allows. Whether a form hits the limit is visible in its result
alone, so nothing that a program computes depends on the limit.
-/

namespace JsonForms

/-- Whether an evaluation ended since too many forms would have been open. -/
def Ending.IsCut {α : Type} (ending : Ending α) : Prop :=
  ∃ limit, ending.result = .error (.depthExceeded limit)

namespace Action

/-- The long action goes on where the short one is cut, and is the same action
otherwise. -/
structure Prolongs {α : Type} (short long : Action α) : Prop where
  same : ∀ {state ending}, short state = some ending → ¬ ending.IsCut →
    long state = some ending
  longer : ∀ {state cut full}, short state = some cut → cut.IsCut → long state = some full →
    cut.state.Extends full.state
  grows : long.Grows

/-- An action that does not look at the limit prolongs itself. -/
theorem Grows.prolongs {α : Type} {action : Action α} (grows : action.Grows) :
    action.Prolongs action where
  same ended _ := ended
  longer {state cut full} ended _ endedAgain := by
    rw [ended] at endedAgain
    cases endedAgain
    exact .refl cut.state
  grows := grows

/-- Where the first action is cut its prolongation goes on, and otherwise the second action is
prolonged. -/
theorem Prolongs.bind {α β : Type} {first second : Action α} {next after : α → Action β}
    (prolongs : first.Prolongs second)
    (prolongsNext : ∀ value, (next value).Prolongs (after value)) :
    (first.bind next).Prolongs (second.bind after) where
  same {state ending} ended complete := by
    obtain ⟨error, middle, found, rfl⟩ | ⟨value, middle, found, ended⟩ := ending_of_bind ended
    · have foundLong := prolongs.same found fun ⟨limit, cut⟩ => complete ⟨limit, by cases cut; rfl⟩
      exact bind_of_error foundLong after
    · rw [bind_of_ok (prolongs.same found (by rintro ⟨_, ⟨⟩⟩))]
      exact (prolongsNext value).same ended complete
  longer {state cut full} ended isCut endedLong := by
    obtain ⟨error, middle, found, rfl⟩ | ⟨value, middle, found, ended⟩ := ending_of_bind ended
    · -- The first action is cut, so all that the second action of the long run does is more.
      obtain ⟨limit, ⟨⟩⟩ := isCut
      obtain ⟨_, _, foundLong, rfl⟩ | ⟨value, _, foundLong, endedLong⟩ := ending_of_bind endedLong
      · exact prolongs.longer found ⟨limit, rfl⟩ foundLong
      · have reached := prolongs.longer found ⟨limit, rfl⟩ foundLong
        exact reached.trans ((prolongsNext value).grows _ _ endedLong)
    · rw [bind_of_ok (prolongs.same found (by rintro ⟨_, ⟨⟩⟩))] at endedLong
      exact (prolongsNext value).longer ended isCut endedLong
  grows := prolongs.grows.bind fun value => (prolongsNext value).grows

/-- Prolonging is kept by sequencing. -/
theorem prolongs_sequential : Sequential Prolongs where
  pure value := (grows_pure value).prolongs
  bind := Prolongs.bind

/-- A form under a higher limit prolongs the form. This is where limits are
looked at: below both of them forms agree, between them only the lower one cuts. -/
theorem Prolongs.nested {α : Type} {inner other : Action α} (prolongs : inner.Prolongs other)
    {low high : Nat} (within : low ≤ high) :
    (nested low inner).Prolongs (nested high other) where
  same {state ending} ended complete := by
    obtain ⟨result, after, room, innerEnded, rfl⟩ | ⟨_, rfl⟩ := ending_of_nested ended
    · exact nested_of_lt (Nat.lt_of_lt_of_le room within) (prolongs.same innerEnded complete)
    · exact absurd ⟨low, rfl⟩ complete
  longer {state cut full} ended isCut endedLong := by
    obtain ⟨result, after, room, innerEnded, rfl⟩ | ⟨_, rfl⟩ := ending_of_nested ended
    · obtain ⟨_, _, _, innerEndedLong, rfl⟩ | ⟨fullHigh, _⟩ := ending_of_nested endedLong
      · exact (prolongs.longer innerEnded isCut innerEndedLong).congr rfl rfl rfl rfl
      · omega
    · exact prolongs.grows.nested high _ _ endedLong
  grows := prolongs.grows.nested high

end Action

namespace Machine

/-- What opened lists do is prolonged under a higher limit. -/
theorem prolongs_congruence (arithmetic : Arithmetic) (memory : Memory) (passes : Nat)
    {low high : Nat} (within : low ≤ high) :
    Congruence ⟨arithmetic, memory, low, passes⟩ ⟨arithmetic, memory, high, passes⟩
      Action.Prolongs where
  toSequential := Action.prolongs_sequential
  sameMemory := rfl
  fail error := (Action.grows_fail error).prolongs
  nested prolongs := prolongs.nested within
  announce operation := (Action.grows_announce operation).prolongs
  lookup name := (Action.grows_lookup name).prolongs
  assign name value := (Action.grows_assign name value).prolongs
  writeLine value := (Action.grows_writeLine value).prolongs
  abs _ := (Action.grows_ofExcept _).prolongs
  add _ _ := (Action.grows_ofExcept _).prolongs
  loop tests bodies :=
    Action.prolongs_sequential.loop Action.grows_diverging.prolongs tests bodies passes

/-- A higher limit changes no ending but those that exceed the lower one, and
what such an evaluation has printed and reported is the beginning of what the
higher limit lets it print and report. -/
theorem ends_of_higher_limit (arithmetic : Arithmetic) (memory : Memory) (expr : Expr)
    (state : State) {low high : Nat} (within : low ≤ high) :
    (∀ ending, Ends arithmetic memory low expr state ending → ¬ ending.IsCut →
      Ends arithmetic memory high expr state ending) ∧
    (∀ cut full, Ends arithmetic memory low expr state cut → cut.IsCut →
      Ends arithmetic memory high expr state full → cut.state.Extends full.state) := by
  have prolongs := fun passes => (prolongs_congruence arithmetic memory passes within).evaluate expr
  constructor
  · rintro ending ⟨passes, ended⟩ complete
    exact ⟨passes, (prolongs passes).same ended complete⟩
  · intro cut full ends isCut endsLong
    -- The two runs may need different numbers of passes; both have enough with the larger one.
    obtain ⟨enough, ended⟩ := ends.eventually
    obtain ⟨enoughLong, endedLong⟩ := endsLong.eventually
    have reached := ended (max enough enoughLong) (Nat.le_max_left _ _)
    have reachedLong := endedLong (max enough enoughLong) (Nat.le_max_right _ _)
    exact (prolongs _).longer reached isCut reachedLong

/-- A program that prints before it opens a second form is cut there under a
limit of one, and what it printed is the beginning of what it prints under a
limit of two. -/
theorem ends_of_higher_limit_two :
    let program := Expr.form "print" [.str "a", .form "seq" [.str "b"]]
    ∃ cut full, Ends .word64 (.below 16) 1 program ⟨∅, .unlimited, #[], 0⟩ cut ∧ cut.IsCut ∧
      Ends .word64 (.below 16) 2 program ⟨∅, .unlimited, #[], 0⟩ full ∧
        cut.state.Extends full.state := by
  intro program
  have cutEnds : Ends .word64 (.below 16) 1 program ⟨∅, .unlimited, #[], 0⟩
      ⟨.error (.depthExceeded 1),
        ⟨∅, ⟨"a\n".toByteArray, none, .full⟩, #[.dispatch .print 1], 0⟩⟩ := ⟨0, rfl⟩
  have fullEnds : Ends .word64 (.below 16) 2 program ⟨∅, .unlimited, #[], 0⟩
      ⟨.ok .nothing, ⟨∅, ⟨"a\nb\n".toByteArray, none, .full⟩,
        #[.dispatch .print 1, .dispatch .seq 2], 0⟩⟩ := ⟨0, rfl⟩
  have limits := ends_of_higher_limit .word64 (.below 16) program ⟨∅, .unlimited, #[], 0⟩
    (by decide : 1 ≤ 2)
  exact ⟨_, _, cutEnds, ⟨1, rfl⟩, fullEnds, limits.2 _ _ cutEnds ⟨1, rfl⟩ fullEnds⟩

end Machine

end JsonForms
