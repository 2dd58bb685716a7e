import JsonForms.Proofs.Evaluation.Passes

/-!
# Settling

How many passes are enough for an evaluation depends on the state that it starts
from. So a machine with few passes is not compared with another one, but with all
machines that have more and more of them: `Action.Settles` says of a family of actions
that those of machines with enough passes end as the one of that machine does.

The events that have been reported before may differ. Nothing that an evaluation does
depends on them, so endings are compared without the events that are reported.
-/

namespace JsonForms

/-- The state with these events reported instead. -/
def State.reporting (state : State) (events : Array Event) : State :=
  { state with events := events }

/-- The ending with these events reported instead. -/
def Ending.reporting {α : Type} (ending : Ending α) (events : Array Event) : Ending α :=
  ⟨ending.result, ending.state.reporting events⟩

/-- Whenever the action of the one machine ends, those of the machines with enough
passes end alike, whatever has been reported before. -/
def Action.Settles {α : Type} (actions : Option Nat → Action α) : Prop :=
  ∀ state ending events, actions none state = some ending →
    ∃ enough reported, ∀ passes, enough ≤ passes →
      actions (some passes) (state.reporting events) = some (ending.reporting reported)

namespace Action

/-- An action that is the same on all machines and does not look at what has been
reported. -/
theorem settles_of_blind {α : Type} {action : Action α}
    (blind : ∀ state ending events, action state = some ending →
      ∃ reported, action (state.reporting events) = some (ending.reporting reported)) :
    Settles fun _ => action := by
  intro state ending events ended
  obtain ⟨reported, alike⟩ := blind state ending events ended
  exact ⟨0, reported, fun _ _ => alike⟩

/-- A result does not depend on the number of passes. -/
theorem settles_ofExcept {α : Type} (result : Except EvalError α) :
    Settles fun _ => ofExcept result := by
  refine settles_of_blind fun state ending events ended => ⟨events, ?_⟩
  cases ended
  rfl

/-- A sequence settles once there are enough passes for both of its actions. -/
theorem Settles.bind {α β : Type} {first : Option Nat → Action α}
    {next : Option Nat → α → Action β} (settles : Settles first)
    (settlesNext : ∀ value, Settles fun index => next index value) :
    Settles fun index => (first index).bind (next index) := by
  intro state ending events ended
  obtain ⟨error, after, found, rfl⟩ | ⟨value, after, found, ended⟩ := ending_of_bind ended
  · obtain ⟨enough, reported, alike⟩ := settles _ _ events found
    exact ⟨enough, reported, fun passes more => bind_of_error (alike passes more) _⟩
  · obtain ⟨enough, middle, alike⟩ := settles _ _ events found
    obtain ⟨enoughNext, reported, alikeNext⟩ := settlesNext value _ _ middle ended
    refine ⟨max enough enoughNext, reported, fun passes more => ?_⟩
    have first := alike passes (Nat.le_trans (Nat.le_max_left _ _) more)
    have second := alikeNext passes (Nat.le_trans (Nat.le_max_right _ _) more)
    exact (bind_of_ok first _).trans second

/-- A form settles when what is inside it does. -/
theorem Settles.nested {α : Type} {inner : Option Nat → Action α} (settles : Settles inner)
    (limit : Nat) : Settles fun index => nested limit (inner index) := by
  intro state ending events ended
  obtain ⟨result, after, room, found, rfl⟩ | ⟨full, rfl⟩ := ending_of_nested ended
  · obtain ⟨enough, reported, alike⟩ := settles _ _ events found
    have alsoRoom : (state.reporting events).depth < limit := room
    exact ⟨enough, reported, fun passes more => nested_of_lt alsoRoom (alike passes more)⟩
  · have alsoFull : limit ≤ (state.reporting events).depth := full
    exact ⟨0, events, fun _ _ => nested_of_le _ alsoFull⟩

/-- Announcing an operation settles at once. -/
theorem settles_announce (operation : Operation) : Settles fun _ => announce operation := by
  refine settles_of_blind fun state ending events ended => ?_
  cases ended
  exact ⟨_, rfl⟩

/-- Looking up a variable settles at once. -/
theorem settles_lookup (name : String) : Settles fun _ => lookup name := by
  refine settles_of_blind fun state ending events ended => ⟨events, ?_⟩
  simp only [lookup, State.reporting] at ended ⊢
  split at ended <;> cases ended <;> rfl

/-- Setting a variable settles at once. -/
theorem settles_assign (name : String) (value : Value) : Settles fun _ => assign name value := by
  refine settles_of_blind fun state ending events ended => ?_
  cases ended
  exact ⟨_, rfl⟩

/-- Printing a value settles at once. -/
theorem settles_writeLine (value : Value) : Settles fun _ => writeLine value := by
  refine settles_of_blind fun state ending events ended => ⟨events, ?_⟩
  simp only [writeLine_eq, State.reporting] at ended ⊢
  split at ended <;> cases ended <;> rfl

/-- Settling is kept by sequencing. -/
theorem settles_sequenced : SequencedFamily (fun _ => True) (fun {_} _ => Settles) where
  int _ := trivial
  str _ := trivial
  bool _ := trivial
  slots _ := trivial
  nothing := trivial
  pure _ := settles_ofExcept (.ok _)
  bind settles next := settles.bind fun value => next value trivial
  andThen settles next := settles.bind fun _ => next

/-- A loop of the one machine makes some passes, and others make as many when they
have enough of them for these, for the test and for the body. -/
theorem Settles.loop {test : Option Nat → Action Value} {body : Option Nat → Action Unit}
    (tests : Settles test) (bodies : Settles body) (few : Nat) :
    Settles fun index => loop (test index) (body index) (index.getD few) := by
  intro state ending events ended
  have diverging : Settles fun _ => (fun _ => none : Action Unit) :=
    fun _ _ _ ended => nomatch ended
  obtain ⟨enough, reported, alike⟩ :=
    settles_sequenced.loop diverging tests bodies few state ending events ended
  refine ⟨max enough few, reported, fun passes more => ?_⟩
  have asMany := alike passes (Nat.le_trans (Nat.le_max_left _ _) more)
  exact Kept.loop (Kept.refl _) (Kept.refl _) (Nat.le_trans (Nat.le_max_right _ _) more) _ _ asMany

end Action

namespace Machine

/-- A machine with few passes, and those with any other number of them. -/
def settling (arithmetic : Arithmetic) (memory : Memory) (limit few : Nat) (index : Option Nat) :
    Machine :=
  ⟨arithmetic, memory, limit, index.getD few⟩

variable {arithmetic : Arithmetic} {memory : Memory} {limit few : Nat}

/-- What opened lists do settles. -/
theorem settles_congruentAt (expr : Expr) :
    CongruentFamilyAt (settling arithmetic memory limit few) expr (fun _ => True)
      (fun {_} _ => Action.Settles) where
  toSequencedFamily := Action.settles_sequenced
  sameMemory := ⟨memory, fun _ => rfl⟩
  fail _ := Action.settles_ofExcept _
  lookup _ := Action.settles_lookup _
  assign _ _ := Action.settles_assign _ _
  writeLine _ _ := Action.settles_writeLine _
  abs _ _ := Action.settles_ofExcept _
  add _ _ _ := Action.settles_ofExcept _
  loop _ tests bodies := tests.loop bodies few

/-- Lists settle when their operands do. -/
theorem settles_list {operands : List (Operand.Family (Option Nat))}
    (settles : ∀ operand ∈ operands, Action.Settles operand.run) :
    Action.Settles fun index => Action.nested limit
      ((settling arithmetic memory limit few index).perform
        (operands.map (Operand.Family.at · index))) :=
  ((settles_congruentAt _).perform Action.settles_announce settles).nested limit

/-- The evaluations of one expression settle. -/
theorem settles_evaluate (expr : Expr) :
    Action.Settles fun index => (settling arithmetic memory limit few index).evaluate expr := by
  induction expr using Expr.induct with
  | int value => exact Action.settles_ofExcept (.ok (Value.int value.toInt))
  | str text => exact Action.settles_ofExcept (.ok (Value.str text))
  | bool value => exact Action.settles_ofExcept (.ok (Value.bool value))
  | list items inductionHypothesis =>
      have settles : ∀ operand ∈ items.map (family (settling arithmetic memory limit few)),
          Action.Settles operand.run := by
        intro operand member
        obtain ⟨item, itemMember, rfl⟩ := List.mem_map.mp member
        exact inductionHypothesis item itemMember
      have opened := @settles_list arithmetic memory limit few _ settles
      simp only [map_at_family] at opened
      simp only [evaluate_list]
      exact opened

end Machine

end JsonForms
