import JsonForms.Proofs.Evaluation.Carried

/-!
# Unrolling loops

A loop can be written with its first round in front: a form that tests the condition
once and, if it is truthy, evaluates the body and then the whole loop. The loop in there
lies two forms deeper, so it may exceed a limit that the loop itself does not exceed,
and two more forms under the limit make up for this.

A loop that has a value has made some rounds. `Rounds` tells them one by one, each from
the state that the one before it left, and after the last of them only the condition is
evaluated, with a falsy value.
-/

namespace JsonForms

/-- A loop and what follows it, with one round in front. -/
theorem Action.loop_succ (test : Action Value) (body : Action Unit) (passes : Nat) :
    ((loop test body (passes + 1)).bind fun _ => Action.pure Value.nothing) =
      test.bind fun value =>
        if value.isTruthy then
          body.bind fun _ => (loop test body passes).bind fun _ => Action.pure .nothing
        else Action.pure .nothing := by
  rw [loop, bind_assoc]
  congr 1
  funext value
  cases value.isTruthy with
  | true => exact bind_assoc _ _ _
  | false => rfl

namespace Expr

/-- The loop of a test and a body, which has at least one expression. -/
def loop (test first : Expr) (following : List Expr) : Expr :=
  .form Operation.whileTrue.name (test :: first :: following)

/-- The loop with its first round in front. -/
def unrolled (test first : Expr) (following : List Expr) : Expr :=
  .form Operation.ifThen.name
    [test, .form Operation.seq.name (first :: (following ++ [loop test first following]))]

end Expr

namespace Machine

/-- A loop announces itself and goes round as long as its test is truthy and passes are left. -/
theorem evaluate_loop (machine : Machine) (test first : Expr) (following : List Expr) :
    machine.evaluate (.loop test first following) =
      Action.nested machine.limit ((Action.announce .whileTrue).bind fun _ =>
        (Action.loop (machine.evaluate test)
          (Operand.runEach (machine.operands (first :: following))) machine.passes).bind
            fun _ => Action.pure .nothing) := by
  refine evaluate_form ?_
  rw [operands, operands]
  rfl

/-- An unrolled loop tests once, and then evaluates the body and the whole loop in a sequence. -/
theorem evaluate_unrolled (machine : Machine) (test first : Expr) (following : List Expr) :
    machine.evaluate (.unrolled test first following) =
      Action.nested machine.limit ((Action.announce .ifThen).bind fun _ =>
        (machine.evaluate test).bind fun value =>
          if value.isTruthy then
            Action.nested machine.limit ((Action.announce .seq).bind fun _ =>
              (Operand.runEach (machine.operands (first :: following))).bind fun _ =>
                machine.evaluate (.loop test first following))
          else Action.pure .nothing) := by
  rw [← evaluate_seq_concat]
  refine evaluate_form ?_
  rw [operands, operands, operands]
  rfl

variable {arithmetic : Arithmetic} {memory : Memory} {limit : Nat} {test first : Expr}
  {following : List Expr}

/-- A loop does what it does with its first round in front, unless this exceeds the limit. -/
theorem carries_unrolled (few level : Nat) (room : level < limit) :
    Action.Carries level level
      ((⟨arithmetic, memory, limit, few⟩ : Machine).evaluate (.unrolled test first following))
      fun passes =>
        (⟨arithmetic, memory, limit, passes + 1⟩ : Machine).evaluate
          (.loop test first following) := by
  have tests (more : Nat) : Action.Carries (level + 1 + more) (level + 1)
      ((⟨arithmetic, memory, limit, few⟩ : Machine).evaluate test)
      fun passes => (⟨arithmetic, memory, limit, passes + 1⟩ : Machine).evaluate test :=
    (carries_evaluate arithmetic memory few test (by omega)).succ
  have bodies (more : Nat) : Action.Carries (level + 1 + more) (level + 1)
      (Operand.runEach (operands ⟨arithmetic, memory, limit, few⟩ (first :: following)))
      fun passes =>
        Operand.runEach (operands ⟨arithmetic, memory, limit, passes + 1⟩ (first :: following)) :=
    (carries_runEach arithmetic memory few (first :: following) (by omega)).succ
  simp only [evaluate_loop, evaluate_unrolled, Action.loop_succ]
  refine Action.Carries.opened (Action.Carries.opening ?_ _ _) room _
  refine (tests 0).bind fun value => ?_
  cases value.isTruthy with
  | false => exact Action.carries_pure _
  | true =>
      refine Action.Carries.opening ((bodies 1).bind fun _ => ?_) _ _
      -- The loop in there is two forms deeper, with as many passes for its rounds.
      refine Action.Carries.opening ?_ _ _
      exact ((tests 2).loop (bodies 2) few).bind fun _ => Action.carries_pure _

/-- With its first round in front a loop does what it does without, if the limit is
higher by the two forms that are opened around it. -/
theorem carries_loop (few level : Nat) (room : level < limit) :
    Action.Carries level level
      ((⟨arithmetic, memory, limit, few⟩ : Machine).evaluate (.loop test first following))
      fun passes =>
        (⟨arithmetic, memory, limit + 2, passes⟩ : Machine).evaluate
          (.unrolled test first following) := by
  have tests (more : Nat) (within : more ≤ 2) : Action.Carries (level + 1) (level + 1 + more)
      ((⟨arithmetic, memory, limit, few⟩ : Machine).evaluate test)
      fun passes => (⟨arithmetic, memory, limit + 2, passes⟩ : Machine).evaluate test :=
    carries_evaluate arithmetic memory few test (by omega)
  have bodies (more : Nat) (within : more ≤ 2) : Action.Carries (level + 1) (level + 1 + more)
      (Operand.runEach (operands ⟨arithmetic, memory, limit, few⟩ (first :: following)))
      fun passes =>
        Operand.runEach (operands ⟨arithmetic, memory, limit + 2, passes⟩ (first :: following)) :=
    carries_runEach arithmetic memory few (first :: following) (by omega)
  simp only [evaluate_loop, evaluate_unrolled]
  refine Action.Carries.opened (Action.Carries.opening ?_ _ _) (by omega) _
  cases few with
  | zero => exact Action.carries_diverging _
  | succ few =>
      rw [Action.loop_succ]
      refine (tests 0 (by omega)).bind fun value => ?_
      cases value.isTruthy with
      | false => exact Action.carries_pure _
      | true =>
          refine Action.Carries.opened ((bodies 1 (by omega)).bind fun _ => ?_) (by omega) _
          refine Action.Carries.opened ?_ (by omega) _
          exact ((tests 2 (by omega)).loop (bodies 2 (by omega)) few).bind fun _ =>
            Action.carries_pure _

/-! ## Rounds -/

/-- Each of some expressions in order has a value, from the first state to the second. -/
inductive Completes (arithmetic : Arithmetic) (memory : Memory) (limit : Nat) :
    List Expr → State → State → Prop where
  | nil (state : State) : Completes arithmetic memory limit [] state state
  | cons {expr : Expr} {following : List Expr} {before between after : State} {value : Value}
      (ends : Ends arithmetic memory limit expr before ⟨.ok value, between⟩)
      (later : Completes arithmetic memory limit following between after) :
      Completes arithmetic memory limit (expr :: following) before after

/-- Rounds of a loop, from the first state to the second: in each of them the test has a
truthy value, and then every expression of the body has a value. -/
inductive Rounds (arithmetic : Arithmetic) (memory : Memory) (limit : Nat) (test : Expr)
    (body : List Expr) : State → State → Prop where
  | none (state : State) : Rounds arithmetic memory limit test body state state
  | next {before tested after final : State} {value : Value}
      (tests : Ends arithmetic memory limit test before ⟨.ok value, tested⟩)
      (truthy : value.isTruthy = true)
      (completes : Completes arithmetic memory limit body tested after)
      (later : Rounds arithmetic memory limit test body after final) :
      Rounds arithmetic memory limit test body before final

variable {body : List Expr} {state there final : State}

/-- Expressions that are evaluated in order without an error are completed. -/
theorem completes_of_runEach {passes : Nat} {items : List Expr}
    (ended : Operand.runEach (operands ⟨arithmetic, memory, limit, passes⟩ items) state =
      some ⟨.ok (), final⟩) : Completes arithmetic memory limit items state final := by
  induction items generalizing state with
  | nil =>
      rw [operands] at ended
      cases ended
      exact .nil _
  | cons item following inductionHypothesis =>
      rw [operands] at ended
      obtain ⟨_, _, _, same⟩ | ⟨value, between, found, later⟩ := Action.ending_of_bind ended
      · cases same
      · exact .cons ⟨passes, found⟩ (inductionHypothesis later)

/-- Expressions that are completed are evaluated in order, once there are enough passes for all of
them. -/
theorem Completes.runEach {items : List Expr}
    (completes : Completes arithmetic memory limit items state final) :
    ∃ enough, ∀ passes, enough ≤ passes →
      Operand.runEach (operands ⟨arithmetic, memory, limit, passes⟩ items) state =
        some ⟨.ok (), final⟩ := by
  induction completes with
  | nil state => exact ⟨0, fun passes _ => by rw [operands]; rfl⟩
  | cons ends _ inductionHypothesis =>
      obtain ⟨enough, ended⟩ := ends.eventually
      obtain ⟨enoughLater, endedLater⟩ := inductionHypothesis
      refine ⟨max enough enoughLater, fun passes more => ?_⟩
      have first := ended passes (Nat.le_trans (Nat.le_max_left _ _) more)
      have later := endedLater passes (Nat.le_trans (Nat.le_max_right _ _) more)
      rw [operands]
      exact (Action.bind_of_ok first _).trans later

/-- A loop without an error has made rounds, and then its test is falsy. -/
theorem rounds_of_loop {passes count : Nat}
    (ended : Action.loop ((⟨arithmetic, memory, limit, passes⟩ : Machine).evaluate test)
      (Operand.runEach (operands ⟨arithmetic, memory, limit, passes⟩ body)) count state =
        some ⟨.ok (), final⟩) :
    ∃ there last, Rounds arithmetic memory limit test body state there ∧
      Ends arithmetic memory limit test there ⟨.ok last, final⟩ ∧ last.isTruthy = false := by
  induction count generalizing state with
  | zero => cases ended
  | succ count inductionHypothesis =>
      obtain ⟨_, _, _, same⟩ | ⟨value, tested, found, later⟩ := Action.ending_of_bind ended
      · cases same
      cases truth : value.isTruthy with
      | false =>
          rw [truth] at later
          cases later
          exact ⟨state, value, .none state, ⟨passes, found⟩, truth⟩
      | true =>
          rw [truth] at later
          obtain ⟨_, _, _, same⟩ | ⟨_, after, completed, later⟩ := Action.ending_of_bind later
          · cases same
          obtain ⟨there, last, rounds, ends, falsy⟩ := inductionHypothesis later
          exact ⟨there, last, .next ⟨passes, found⟩ truth (completes_of_runEach completed) rounds,
            ends, falsy⟩

/-- Rounds and a falsy test make a loop, with enough passes for all of them. -/
theorem Rounds.loop {last : Value} (rounds : Rounds arithmetic memory limit test body state there)
    (ends : Ends arithmetic memory limit test there ⟨.ok last, final⟩)
    (falsy : last.isTruthy = false) :
    ∃ enough, ∀ passes count, enough ≤ passes → enough ≤ count →
      Action.loop ((⟨arithmetic, memory, limit, passes⟩ : Machine).evaluate test)
        (Operand.runEach (operands ⟨arithmetic, memory, limit, passes⟩ body)) count state =
          some ⟨.ok (), final⟩ := by
  induction rounds with
  | none state =>
      obtain ⟨enough, ended⟩ := ends.eventually
      refine ⟨enough + 1, fun passes count more moreCount => ?_⟩
      obtain ⟨count, rfl⟩ : ∃ rest, count = rest + 1 := ⟨count - 1, by omega⟩
      rw [Action.loop, Action.bind_of_ok (ended passes (by omega)), falsy]
      rfl
  | next tests truthy completes _ inductionHypothesis =>
      obtain ⟨enough, ended⟩ := tests.eventually
      obtain ⟨enoughBody, completed⟩ := completes.runEach
      obtain ⟨enoughLater, later⟩ := inductionHypothesis ends
      refine ⟨enough + enoughBody + enoughLater + 1, fun passes count more moreCount => ?_⟩
      obtain ⟨count, rfl⟩ : ∃ rest, count = rest + 1 := ⟨count - 1, by omega⟩
      rw [Action.loop, Action.bind_of_ok (ended passes (by omega)), truthy, if_pos rfl,
        Action.bind_of_ok (completed passes (by omega))]
      exact later passes count (by omega) (by omega)

/-- A form that is evaluated for its effect has a value exactly when it can be opened and
its effect is completed there. The value is nothing. -/
theorem ends_effect_iff {operation : Operation} {operands : List Expr} {effect : Nat → Action Unit}
    (evaluated : ∀ passes,
      (⟨arithmetic, memory, limit, passes⟩ : Machine).evaluate (.form operation.name operands) =
        Action.nested limit ((Action.announce operation).bind fun _ =>
          (effect passes).bind fun _ => Action.pure .nothing)) {value : Value} :
    Ends arithmetic memory limit (.form operation.name operands) state ⟨.ok value, final⟩ ↔
      state.depth < limit ∧ value = .nothing ∧ ∃ passes after,
        effect passes (state.opened operation) = some ⟨.ok (), after⟩ ∧
        final = after.withDepth state.depth := by
  constructor
  · intro ends
    have level : final.depth = state.depth := ends.depth
    obtain ⟨passes, ended⟩ := ends
    rw [evaluated] at ended
    by_cases room : state.depth < limit
    · rw [Action.nested_announce room] at ended
      obtain ⟨⟨result, inner⟩, found, same⟩ := Option.map_eq_some_iff.mp ended
      cases same
      obtain ⟨_, _, _, failed⟩ | ⟨_, after, completed, finished⟩ := Action.ending_of_bind found
      · cases failed
      cases finished
      exact ⟨room, rfl, passes, inner, completed, by rw [← level]; rfl⟩
    · rw [Action.nested_of_le _ (Nat.not_lt.mp room)] at ended
      cases ended
  · rintro ⟨room, rfl, passes, after, completed, rfl⟩
    have ends : Ends arithmetic memory limit (.form operation.name operands) state
        ⟨.ok .nothing, after.withDepth (after.depth - 1)⟩ := by
      refine ⟨passes, ?_⟩
      rw [evaluated, Action.nested_announce room, Action.bind_of_ok completed]
      rfl
    have level : after.depth - 1 = state.depth := ends.depth
    rwa [level] at ends

/-- A loop has a value exactly when it makes rounds and then its test is falsy. -/
theorem ends_loop_iff {value : Value} :
    Ends arithmetic memory limit (.loop test first following) state ⟨.ok value, final⟩ ↔
      state.depth < limit ∧ value = .nothing ∧ ∃ there last after,
        Rounds arithmetic memory limit test (first :: following) (state.opened .whileTrue) there ∧
        Ends arithmetic memory limit test there ⟨.ok last, after⟩ ∧ last.isTruthy = false ∧
        final = after.withDepth state.depth := by
  rw [Expr.loop, ends_effect_iff fun passes => evaluate_loop _ test first following]
  refine and_congr_right fun _ => and_congr_right fun _ => ⟨?_, ?_⟩
  · rintro ⟨passes, after, looped, same⟩
    obtain ⟨there, last, rounds, tested, falsy⟩ := rounds_of_loop looped
    exact ⟨there, last, after, rounds, tested, falsy, same⟩
  · rintro ⟨there, last, after, rounds, tested, falsy, same⟩
    obtain ⟨enough, looped⟩ := rounds.loop tested falsy
    exact ⟨enough, after, looped enough enough (Nat.le_refl _) (Nat.le_refl _), same⟩

/-- A list that does not exceed the limit has been opened. -/
theorem Ends.room {items : List Expr} {ending : Ending Value}
    (ends : Ends arithmetic memory limit (.list items) state ending) (complete : ¬ ending.IsCut) :
    state.depth < limit := by
  by_contra full
  rw [ends.unique (ends_of_full (Nat.not_lt.mp full) items)] at complete
  exact complete ⟨limit, rfl⟩

/-- A loop does what it does with its first round in front, unless this exceeds the
limit, and with two more forms under the limit this does what the loop does. A loop has
a value exactly when it makes rounds and then its test is falsy, which is the last that
is evaluated; its own value is nothing. -/
theorem loops_can_be_unrolled (arithmetic : Arithmetic) (memory : Memory) (limit : Nat)
    (test first : Expr) (following : List Expr) (state : State) :
    (∀ ending, Ends arithmetic memory limit (.unrolled test first following) state ending →
      ¬ ending.IsCut →
        ∃ other, Ends arithmetic memory limit (.loop test first following) state other ∧
          ending.ShowsSame other) ∧
    (∀ ending, Ends arithmetic memory limit (.loop test first following) state ending →
      ¬ ending.IsCut → ∃ other,
        Ends arithmetic memory (limit + 2) (.unrolled test first following) state other ∧
        ending.ShowsSame other) ∧
    ∀ value final,
      Ends arithmetic memory limit (.loop test first following) state ⟨.ok value, final⟩ ↔
      state.depth < limit ∧ value = .nothing ∧ ∃ there last after,
        Rounds arithmetic memory limit test (first :: following) (state.opened .whileTrue) there ∧
        Ends arithmetic memory limit test there ⟨.ok last, after⟩ ∧ last.isTruthy = false ∧
        final = after.withDepth state.depth := by
  refine ⟨fun ending ends complete => ?_, fun ending ends complete => ?_,
    fun value final => ends_loop_iff⟩
  · have room := ends.room complete
    obtain ⟨few, ended⟩ := ends
    obtain ⟨passes, other, otherEnded, same⟩ :=
      (carries_unrolled few state.depth room).showsSame ended complete
    exact ⟨other, ⟨passes + 1, otherEnded⟩, same⟩
  · have room := ends.room complete
    obtain ⟨few, ended⟩ := ends
    obtain ⟨passes, other, otherEnded, same⟩ :=
      (carries_loop few state.depth room).showsSame ended complete
    exact ⟨other, ⟨passes, otherEnded⟩, same⟩

/-- A variable is set to a falsy value in the only round. With this round in front, the
set in it is one form too deep for a limit of two, and two more forms are enough. -/
theorem loops_can_be_unrolled_once :
    let test := Expr.form "get" [.str "x"]
    let body := Expr.form "set" [.str "x", .bool false]
    let state : State := ⟨.ofList [("x", .bool true)], .unlimited, #[], 0⟩
    ∃ ending other cut, Ends .word64 (.below 16) 2 (.loop test body []) state ending ∧
      ¬ ending.IsCut ∧
      Ends .word64 (.below 16) 2 (.unrolled test body []) state cut ∧ cut.IsCut ∧
      Ends .word64 (.below 16) 4 (.unrolled test body []) state other ∧ ¬ other.IsCut ∧
      ending.ShowsSame other ∧
      (∃ again, Ends .word64 (.below 16) 4 (.loop test body []) state again ∧
        other.ShowsSame again) ∧
      ∃ there last after, Rounds .word64 (.below 16) 2 test [body] (state.opened .whileTrue) there ∧
        Ends .word64 (.below 16) 2 test there ⟨.ok last, after⟩ ∧ last.isTruthy = false ∧
        ending.state = after.withDepth state.depth := by
  intro test body state
  have computed : (Machine.evaluate ⟨.word64, .below 16, 2, 2⟩ (.loop test body []) state).map
      Ending.result = some (.ok .nothing) := by decide +kernel
  obtain ⟨final, ends⟩ := exists_ends_of_result computed
  have cut : Ends .word64 (.below 16) 2 (.unrolled test body []) state
      ⟨.error (.depthExceeded 2), ⟨state.environment, .unlimited, #[.dispatch .ifThen 1,
        .dispatch .get 2, .dispatch .seq 2], 0⟩⟩ := ⟨0, rfl⟩
  have complete : ¬ (⟨.ok .nothing, final⟩ : Ending Value).IsCut := by rintro ⟨_, ⟨⟩⟩
  obtain ⟨_, unrolls, finishes⟩ := loops_can_be_unrolled .word64 (.below 16) 2 test body [] state
  obtain ⟨other, otherEnds, same⟩ := unrolls _ ends complete
  have otherComplete : ¬ other.IsCut := by
    rintro ⟨_, exceeded⟩
    cases same.result.trans exceeded
  have again := (loops_can_be_unrolled .word64 (.below 16) 4 test body [] state).1 other otherEnds
    otherComplete
  obtain ⟨_, _, rounds⟩ := (finishes _ _).mp ends
  exact ⟨_, other, _, ends, complete, cut, ⟨2, rfl⟩, otherEnds, otherComplete, same, again, rounds⟩

end Machine

end JsonForms
