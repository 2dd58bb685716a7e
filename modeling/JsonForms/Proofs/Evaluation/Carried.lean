import JsonForms.Proofs.Evaluation.Abreast
import JsonForms.Proofs.Evaluation.Contexts

/-!
# Evaluations carried to another depth

An expression that is evaluated with other forms around it does the same there, as
long as it has no less room below the limit than it had. So an action is carried from
one number of open forms to another one: unless it exceeds its limit, the actions there
end with the same result, the same variables and the same output.

As in settling, the action of a machine with few passes is compared with those of all
machines that have enough of them, since loops need not be written alike on both sides.
-/

namespace JsonForms

/-- States with the same variables and the same sink, in which so many forms are open.
What has been reported may differ. -/
structure State.Besides (level otherLevel : Nat) (state other : State) : Prop where
  level : state.depth = level
  otherLevel : other.depth = otherLevel
  environment : other.environment = state.environment
  sink : other.sink = state.sink

/-- A form that is opened on the first side adds to its own number of open forms only. -/
theorem State.Besides.opened {level otherLevel : Nat} {state other : State}
    (besides : Besides level otherLevel state other) (operation : Operation) :
    Besides (level + 1) otherLevel (state.opened operation) other where
  level := congrArg (· + 1) besides.level
  otherLevel := besides.otherLevel
  environment := besides.environment
  sink := besides.sink

/-- A form that is opened on the second side adds to its own number of open forms only. -/
theorem State.Besides.otherOpened {level otherLevel : Nat} {state other : State}
    (besides : Besides level otherLevel state other) (operation : Operation) :
    Besides level (otherLevel + 1) state (other.opened operation) where
  level := besides.level
  otherLevel := congrArg (· + 1) besides.otherLevel
  environment := besides.environment
  sink := besides.sink

/-- Unless the action exceeds its limit, the actions of machines with enough passes end
with its result, each from its own number of open forms, and both leave the same. -/
def Action.Carries (level otherLevel : Nat) {α : Type} (action : Action α)
    (others : Nat → Action α) : Prop :=
  ∀ state other ending, State.Besides level otherLevel state other →
    action state = some ending → ¬ ending.IsCut →
      ∃ enough final, State.Besides level otherLevel ending.state final ∧
        ∀ passes, enough ≤ passes → others passes other = some ⟨ending.result, final⟩

namespace Action

variable {level otherLevel : Nat} {α β : Type}

/-- An action that only has a value is carried anywhere. -/
theorem carries_pure (value : α) :
    Carries level otherLevel (Action.pure value) fun _ => Action.pure value := by
  intro state other ending besides ended _
  cases ended
  exact ⟨0, other, besides, fun _ _ => rfl⟩

/-- Nothing has to be carried of an action that does not end. -/
theorem carries_diverging (others : Nat → Action α) :
    Carries level otherLevel (fun _ => none) others :=
  fun _ _ _ _ ended => nomatch ended

/-- Actions are carried one after another, once there are enough passes for both. -/
theorem Carries.bind {first : Action α} {others : Nat → Action α} {next : α → Action β}
    {othersNext : Nat → α → Action β} (carries : Carries level otherLevel first others)
    (carriesNext : ∀ value, Carries level otherLevel (next value) fun passes =>
      othersNext passes value) :
    Carries level otherLevel (first.bind next) fun passes =>
      (others passes).bind (othersNext passes) := by
  intro state other ending besides ended complete
  obtain ⟨error, middle, found, rfl⟩ | ⟨value, middle, found, ended⟩ := ending_of_bind ended
  · obtain ⟨enough, final, reached, alike⟩ :=
      carries _ _ _ besides found fun ⟨limit, cut⟩ => complete ⟨limit, by cases cut; rfl⟩
    exact ⟨enough, final, reached, fun passes more => bind_of_error (alike passes more) _⟩
  · obtain ⟨enough, between, reached, alike⟩ :=
      carries _ _ _ besides found (by rintro ⟨_, ⟨⟩⟩)
    obtain ⟨enoughNext, final, left, alikeNext⟩ :=
      carriesNext value _ _ _ reached ended complete
    refine ⟨max enough enoughNext, final, left, fun passes more => ?_⟩
    have first := alike passes (Nat.le_trans (Nat.le_max_left _ _) more)
    have second := alikeNext passes (Nat.le_trans (Nat.le_max_right _ _) more)
    exact (bind_of_ok first _).trans second

/-- One more pass than enough is enough. -/
theorem Carries.succ {action : Action α} {others : Nat → Action α}
    (carries : Carries level otherLevel action others) :
    Carries level otherLevel action fun passes => others (passes + 1) := by
  intro state other ending besides ended complete
  obtain ⟨enough, final, reached, alike⟩ := carries _ _ _ besides ended complete
  exact ⟨enough, final, reached, fun passes more => alike _ (Nat.le_succ_of_le more)⟩

/-- What is carried to the same number of open forms shows the same. -/
theorem Carries.showsSame {action : Action α} {others : Nat → Action α} {state : State}
    {ending : Ending α} (carries : Carries state.depth state.depth action others)
    (ended : action state = some ending) (complete : ¬ ending.IsCut) :
    ∃ passes other, others passes state = some other ∧ ending.ShowsSame other := by
  obtain ⟨enough, final, reached, alike⟩ :=
    carries _ _ _ ⟨rfl, rfl, rfl, rfl⟩ ended complete
  exact ⟨enough, _, alike enough (Nat.le_refl _), rfl, reached.environment.symm,
    congrArg Sink.written reached.sink.symm⟩

/-- A form carries to what is inside it. -/
theorem Carries.opening {inner : Action α} {others : Nat → Action α}
    (carries : Carries (level + 1) otherLevel inner others) (limit : Nat)
    (operation : Operation) :
    Carries level otherLevel (nested limit ((announce operation).bind fun _ => inner)) others := by
  intro state other ending besides ended complete
  by_cases room : state.depth < limit
  · rw [nested_announce room] at ended
    obtain ⟨inside, found, rfl⟩ := Option.map_eq_some_iff.mp ended
    obtain ⟨enough, final, reached, alike⟩ :=
      carries _ _ _ (besides.opened operation) found complete
    refine ⟨enough, final, ⟨?_, reached.otherLevel, reached.environment, reached.sink⟩, alike⟩
    show inside.state.depth - 1 = level
    rw [reached.level, Nat.add_sub_cancel]
  · rw [nested_of_le _ (Nat.not_lt.mp room)] at ended
    cases ended
    exact absurd ⟨limit, rfl⟩ complete

/-- What is carried to the inside of a form is carried to the form, if it can be opened. -/
theorem Carries.opened {action : Action α} {inner : Nat → Action α}
    (carries : Carries level (otherLevel + 1) action inner) {limit : Nat}
    (room : otherLevel < limit) (operation : Operation) :
    Carries level otherLevel action fun passes =>
      nested limit ((announce operation).bind fun _ => inner passes) := by
  intro state other ending besides ended complete
  obtain ⟨enough, final, reached, alike⟩ :=
    carries _ _ _ (besides.otherOpened operation) ended complete
  refine ⟨enough, final.withDepth (final.depth - 1),
    ⟨reached.level, ?_, reached.environment, reached.sink⟩, fun passes more => ?_⟩
  · show final.depth - 1 = otherLevel
    rw [reached.otherLevel, Nat.add_sub_cancel]
  · have otherRoom : other.depth < limit := besides.otherLevel ▸ room
    exact (nested_announce otherRoom operation _).trans (congrArg _ (alike passes more))

/-- A family of the carried action and of those that it is carried to. -/
theorem carries_sequenced (level otherLevel : Nat) :
    SequencedFamily (fun _ => True) fun {_} _ (actions : Option Nat → Action _) =>
      Carries level otherLevel (actions none) fun passes => actions (some passes) where
  int _ := trivial
  str _ := trivial
  bool _ := trivial
  slots _ := trivial
  nothing := trivial
  pure _ := carries_pure _
  bind carries next := carries.bind fun value => next value trivial
  andThen carries next := carries.bind fun _ => next

/-- A loop makes some passes, and it is carried to loops that may make more of them. -/
theorem Carries.loop {test : Action Value} {body : Action Unit} {tests : Nat → Action Value}
    {bodies : Nat → Action Unit} (carriesTest : Carries level otherLevel test tests)
    (carriesBody : Carries level otherLevel body bodies) (few : Nat) :
    Carries level otherLevel (loop test body few) fun passes =>
      loop (tests passes) (bodies passes) passes := by
  intro state other ending besides ended complete
  have asMany : Carries level otherLevel (Action.loop test body few) fun passes =>
      Action.loop (tests passes) (bodies passes) few :=
    @SequencedFamily.loop (Option Nat) _ _ (carries_sequenced level otherLevel)
      (carries_diverging _) (fun index => index.elim test tests)
      (fun index => index.elim body bodies) carriesTest carriesBody few
  obtain ⟨enough, final, reached, alike⟩ := asMany _ _ _ besides ended complete
  refine ⟨max enough few, final, reached, fun passes more => ?_⟩
  have found := alike passes (Nat.le_trans (Nat.le_max_left _ _) more)
  exact Kept.loop (Kept.refl _) (Kept.refl _) (Nat.le_trans (Nat.le_max_right _ _) more) _ _ found

end Action

namespace Machine

variable {arithmetic : Arithmetic} {memory : Memory} {limit higher : Nat} {expr : Expr}
  {state other : State} {ending : Ending Value}

/-- An ending that does not exceed the limit is the same under every higher limit. -/
theorem Ends.of_limit_le (ends : Ends arithmetic memory limit expr state ending)
    (complete : ¬ ending.IsCut) (within : limit ≤ higher) :
    Ends arithmetic memory higher expr state ending := by
  obtain ⟨passes, ended⟩ := ends
  exact ⟨passes, ((prolongs_congruence arithmetic memory passes within).evaluate expr).same ended
    complete⟩

/-- States that go abreast leave the same, when both sides keep their sinks. -/
theorem Ends.besides_of_abreast {more : Nat} {otherEnding : Ending Value}
    (ends : Ends arithmetic memory limit expr state ending)
    (otherEnds : Ends arithmetic memory higher expr other otherEnding)
    (environment : state.environment = other.environment) (sink : state.sink = other.sink)
    (reached : State.Abreast more state other ending.state otherEnding.state) :
    otherEnding.state.environment = ending.state.environment ∧
      otherEnding.state.sink = ending.state.sink := by
  obtain ⟨capacity, refusal⟩ := ends.capacity?
  obtain ⟨otherCapacity, otherRefusal⟩ := otherEnds.capacity?
  rw [← sink] at otherCapacity otherRefusal
  exact ⟨reached.environment_eq environment,
    Sink.eq_of_written (reached.written_eq (by rw [sink])) (otherCapacity.trans capacity.symm)
      (otherRefusal.trans refusal.symm)⟩

/-- A result that is not about the limit is the same under a higher one. -/
theorem mapError_deeper_of_complete (more : Nat) (complete : ¬ ending.IsCut) :
    ending.result.mapError (EvalError.deeper more) = ending.result := by
  obtain ⟨error | value, final⟩ := ending
  · cases error with
    | depthExceeded limit => exact absurd ⟨limit, rfl⟩ complete
    | _ => rfl
  · rfl

/-- An evaluation that does not exceed its limit ends alike with more forms open under
a limit that is higher by as much. -/
theorem Ends.deeper (ends : Ends arithmetic memory limit expr state ending)
    (complete : ¬ ending.IsCut) {more : Nat} (depth : other.depth = state.depth + more)
    (environment : state.environment = other.environment) (sink : state.sink = other.sink) :
    ∃ final, Ends arithmetic memory (limit + more) expr other ⟨ending.result, final⟩ ∧
      final.environment = ending.state.environment ∧ final.sink = ending.state.sink := by
  obtain ⟨final, otherEnds, reached⟩ := ends.abreast more other (fun _ _ => by rw [environment])
    depth (by rw [sink]; exact ⟨rfl, fun _ => rfl⟩)
  have same := ends.besides_of_abreast otherEnds environment sink reached
  rw [mapError_deeper_of_complete more complete] at otherEnds
  exact ⟨final, otherEnds, same⟩

/-- An evaluation that does not exceed its limit ends alike with fewer forms open under
a limit that is lower by as much. -/
theorem Ends.shallower {more : Nat} (ends : Ends arithmetic memory (limit + more) expr state ending)
    (complete : ¬ ending.IsCut) (depth : state.depth = other.depth + more)
    (environment : state.environment = other.environment) (sink : state.sink = other.sink) :
    ∃ final, Ends arithmetic memory limit expr other ⟨ending.result, final⟩ ∧
      final.environment = ending.state.environment ∧ final.sink = ending.state.sink := by
  obtain ⟨passes, ended⟩ := id ends
  have alike : other.sink.Alike state.sink := by
    rw [sink]
    exact ⟨rfl, fun _ => rfl⟩
  obtain ⟨_, unended⟩ | ⟨result, after, final, otherEnded, found, reached, _⟩ :=
    abreast_evaluate arithmetic memory limit passes (fun _ _ => by rw [environment]) _ _
      (State.abreast_start depth alike)
  · rw [ended] at unended
    cases unended
  · rw [ended] at found
    cases found
    have same : result.mapError (EvalError.deeper more) = result := by
      cases result with
      | ok => rfl
      | error error =>
          cases error with
          | depthExceeded lower => exact absurd ⟨lower + more, rfl⟩ complete
          | _ => rfl
    have otherEnds : Ends arithmetic memory limit expr other ⟨result, after⟩ := ⟨passes, otherEnded⟩
    obtain ⟨sameEnvironment, sameSink⟩ :=
      otherEnds.besides_of_abreast ends environment.symm sink.symm reached
    exact ⟨after, same.symm ▸ otherEnds, sameEnvironment.symm, sameSink.symm⟩

/-- An evaluation is carried to wherever there is no less room below the limit. -/
theorem carries_evaluate (arithmetic : Arithmetic) (memory : Memory) (few : Nat) (expr : Expr)
    {level otherLevel : Nat} (room : limit + otherLevel ≤ higher + level) :
    Action.Carries level otherLevel ((⟨arithmetic, memory, limit, few⟩ : Machine).evaluate expr)
      fun passes => (⟨arithmetic, memory, higher, passes⟩ : Machine).evaluate expr := by
  intro state other ending besides ended complete
  have ends : Ends arithmetic memory limit expr state ending := ⟨few, ended⟩
  have environment := besides.environment.symm
  have sink := besides.sink.symm
  obtain ⟨final, otherEnds, sameEnvironment, sameSink⟩ :
      ∃ final, Ends arithmetic memory higher expr other ⟨ending.result, final⟩ ∧
        final.environment = ending.state.environment ∧ final.sink = ending.state.sink := by
    obtain deeper | shallower := Nat.le_total level otherLevel
    · obtain ⟨more, rfl⟩ := Nat.exists_eq_add_of_le deeper
      have depth : other.depth = state.depth + more := by
        rw [besides.otherLevel, besides.level]
      obtain ⟨final, otherEnds, same⟩ := ends.deeper complete depth environment sink
      exact ⟨final, otherEnds.of_limit_le complete (by omega), same⟩
    · obtain ⟨more, rfl⟩ := Nat.exists_eq_add_of_le shallower
      have depth : state.depth = other.depth + more := by
        rw [besides.otherLevel, besides.level]
      have prolonged : Ends arithmetic memory (higher + more) expr state ending :=
        ends.of_limit_le complete (by omega)
      exact prolonged.shallower complete depth environment sink
  obtain ⟨enough, alike⟩ := otherEnds.eventually
  exact ⟨enough, final, ⟨ends.depth.trans besides.level, otherEnds.depth.trans besides.otherLevel,
    sameEnvironment, sameSink⟩, alike⟩

/-- Expressions in order are carried as each of them is. -/
theorem carries_runEach (arithmetic : Arithmetic) (memory : Memory) (few : Nat) (items : List Expr)
    {level otherLevel : Nat} (room : limit + otherLevel ≤ higher + level) :
    Action.Carries level otherLevel
      (Operand.runEach (operands ⟨arithmetic, memory, limit, few⟩ items))
      fun passes => Operand.runEach (operands ⟨arithmetic, memory, higher, passes⟩ items) := by
  let machines : Option Nat → Machine := fun index =>
    index.elim ⟨arithmetic, memory, limit, few⟩ fun passes => ⟨arithmetic, memory, higher, passes⟩
  have carries : ∀ operand ∈ items.map (family machines),
      Action.Carries level otherLevel (operand.run none) fun passes =>
        operand.run (some passes) := by
    intro operand member
    obtain ⟨item, _, rfl⟩ := List.mem_map.mp member
    exact carries_evaluate arithmetic memory few item room
  have each := (Action.carries_sequenced level otherLevel).runEach carries
  simp only [map_at_family] at each
  exact each

end Machine

end JsonForms
