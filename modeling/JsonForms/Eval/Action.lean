import JsonForms.Environment
import JsonForms.Eval.Error
import JsonForms.Value.Printer

/-!
# Actions

An action is a step of an evaluation: it takes a state to an ending. An ending
has a result and a state whether the result is a value or an error, so what was
done before a failure is not undone by it. An action has no ending when some
loop in it uses up its passes.
-/

namespace JsonForms

/-- Something an evaluation reports while it runs: a form whose operation is
about to run, with the number of open forms, and a variable about to be set. -/
inductive Event where
  | dispatch (operation : Operation) (depth : Nat)
  | set (name : String) (value : Value)
deriving DecidableEq

/-- What an evaluation reads and changes: the variables, the sink that is
printed to, the events reported so far, and the number of open forms. -/
structure State where
  environment : Environment
  sink : Sink
  events : Array Event
  depth : Nat

instance : Inhabited State := ⟨⟨default, default, #[], 0⟩⟩

/-- How an action ended. -/
structure Ending (α : Type) where
  result : Except EvalError α
  state : State

/-- A step of an evaluation. -/
def Action (α : Type) : Type := State → Option (Ending α)

namespace Action

/-- The action that does nothing and has a value. -/
@[inline] protected def pure {α : Type} (value : α) : Action α :=
  fun state => some ⟨.ok value, state⟩

/-- One action after another, which may depend on the value of the first. An
error of the first is the error of both. -/
@[inline] protected def bind {α β : Type} (first : Action α) (next : α → Action β) : Action β :=
  fun state =>
    match first state with
    | none => none
    | some ⟨.ok value, after⟩ => next value after
    | some ⟨.error error, after⟩ => some ⟨.error error, after⟩

@[always_inline]
instance : Monad Action where
  pure := Action.pure
  bind := Action.bind

/-- The action that fails. -/
@[inline] def fail {α : Type} (error : EvalError) : Action α :=
  fun state => some ⟨.error error, state⟩

/-- The action whose result is already known. -/
@[inline] def ofExcept {α : Type} (result : Except EvalError α) : Action α :=
  fun state => some ⟨result, state⟩

/-- Runs an action inside one more form. More than `limit` forms cannot be open. -/
@[inline] def nested {α : Type} (limit : Nat) (inner : Action α) : Action α :=
  fun state =>
    if state.depth < limit then
      match inner { state with depth := state.depth + 1 } with
      | none => none
      | some ⟨result, after⟩ => some ⟨result, { after with depth := after.depth - 1 }⟩
    else some ⟨.error (.depthExceeded limit), state⟩

/-- Reports that an operation is about to run. -/
@[inline] def announce (operation : Operation) : Action Unit :=
  fun state =>
    some ⟨.ok (), { state with events := state.events.push (.dispatch operation state.depth) }⟩

/-- The value of a variable. -/
def lookup (name : String) : Action Value :=
  fun state =>
    match state.environment.get? name with
    | some value => some ⟨.ok value, state⟩
    | none => some ⟨.error (.undefinedVariable name), state⟩

/-- Reports that a variable is set, and sets it. -/
def assign (name : String) (value : Value) : Action Unit :=
  fun state =>
    some ⟨.ok (), { state with
      events := state.events.push (.set name value)
      environment := state.environment.set name value }⟩

/-- Writes a value and a newline to the sink, piece by piece. -/
def writeLine (value : Value) : Action Unit :=
  fun state =>
    match state.sink.writeEach (value.pieces ++ ["\n"]) with
    | (.ok (), sink) => some ⟨.ok (), { state with sink := sink }⟩
    | (.error refusal, sink) => some ⟨.error (.output refusal), { state with sink := sink }⟩

/-- Runs an action so many times. -/
def times {α : Type} (action : Action α) : Nat → Action Unit
  | 0 => Action.pure ()
  | count + 1 => action.bind fun _ => times action count

/-- Runs a body as long as a test before it has a truthy value. The test is run
`passes` times at most; when it is truthy every time, there is no ending. -/
def loop (test : Action Value) (body : Action Unit) : Nat → Action Unit
  | 0 => fun _ => none
  | passes + 1 =>
      test.bind fun value =>
        if value.isTruthy then body.bind fun _ => loop test body passes else Action.pure ()

/-- A line goes out as one write of its text would. -/
theorem writeLine_eq (value : Value) (state : State) :
    writeLine value state =
      match state.sink.write (value.text ++ "\n").toByteArray with
      | (.ok (), sink) => some ⟨.ok (), { state with sink := sink }⟩
      | (.error refusal, sink) => some ⟨.error (.output refusal), { state with sink := sink }⟩ := by
  have joined : String.join (value.pieces ++ ["\n"]) = value.text ++ "\n" := by
    simp [String.join_append]
  rw [writeLine, Sink.writeEach_eq_write, joined]

/-- An action that follows a value goes on from the state the value was found in. -/
theorem bind_of_ok {α β : Type} {first : Action α} {state after : State} {value : α}
    (ended : first state = some ⟨.ok value, after⟩) (next : α → Action β) :
    first.bind next state = next value after := by
  simp [Action.bind, ended]

/-- Nothing is done after an error. -/
theorem bind_of_error {α β : Type} {first : Action α} {state after : State} {error : EvalError}
    (ended : first state = some ⟨.error error, after⟩) (next : α → Action β) :
    first.bind next state = some ⟨.error error, after⟩ := by
  simp [Action.bind, ended]

/-- Nothing is done after an action that does not end. -/
theorem bind_of_none {α β : Type} {first : Action α} {state : State}
    (unended : first state = none) (next : α → Action β) : first.bind next state = none := by
  simp [Action.bind, unended]

/-- Passing the value on without doing anything changes nothing. -/
theorem bind_pure {α : Type} (action : Action α) : action.bind Action.pure = action := by
  funext state
  rcases found : action state with _ | ⟨error | value, after⟩
  · exact bind_of_none found _
  · exact bind_of_error found _
  · exact bind_of_ok found _

/-- How a sequence ends depends on its first action only by how this one ends. -/
theorem bind_congr {α β : Type} {first other : Action α} {state start : State}
    (same : first state = other start) (next : α → Action β) :
    first.bind next state = other.bind next start := by
  simp only [Action.bind, same]

/-- How three actions in a row are grouped makes no difference. -/
theorem bind_assoc {α β γ : Type} (first : Action α) (second : α → Action β)
    (third : β → Action γ) :
    (first.bind second).bind third = first.bind fun value => (second value).bind third := by
  funext state
  rcases found : first state with _ | ⟨_ | value, after⟩
  · rw [bind_of_none found, bind_of_none (bind_of_none found _)]
  · rw [bind_of_error found, bind_of_error (bind_of_error found _)]
  · rw [bind_of_ok found]
    exact bind_congr (bind_of_ok found _) _

/-- A sequence ends by an error of the first action, or as the second one does. -/
theorem ending_of_bind {α β : Type} {first : Action α} {next : α → Action β} {state : State}
    {ending : Ending β} (ended : first.bind next state = some ending) :
    (∃ error after, first state = some ⟨.error error, after⟩ ∧ ending = ⟨.error error, after⟩) ∨
      ∃ value after, first state = some ⟨.ok value, after⟩ ∧ next value after = some ending := by
  rcases found : first state with _ | ⟨error | value, after⟩
  · rw [bind_of_none found] at ended
    cases ended
  · rw [bind_of_error found] at ended
    cases ended
    exact .inl ⟨error, after, rfl, rfl⟩
  · rw [bind_of_ok found] at ended
    exact .inr ⟨value, after, rfl, ended⟩

/-- With room for one more form, the inner action ends as it does one level deeper. -/
theorem nested_of_lt {α : Type} {limit : Nat} {inner : Action α} {state after : State}
    {result : Except EvalError α} (room : state.depth < limit)
    (ended : inner { state with depth := state.depth + 1 } = some ⟨result, after⟩) :
    nested limit inner state = some ⟨result, { after with depth := after.depth - 1 }⟩ := by
  rw [nested, if_pos room]
  simp only [ended]

/-- With room for one more form, there is no ending when the inner action has none. -/
theorem nested_of_none {α : Type} {limit : Nat} {inner : Action α} {state : State}
    (room : state.depth < limit)
    (unended : inner { state with depth := state.depth + 1 } = none) :
    nested limit inner state = none := by
  rw [nested, if_pos room]
  simp only [unended]

/-- Without room for one more form, the inner action is not begun. -/
theorem nested_of_le {α : Type} {limit : Nat} {state : State} (inner : Action α)
    (full : limit ≤ state.depth) :
    nested limit inner state = some ⟨.error (.depthExceeded limit), state⟩ := by
  rw [nested, if_neg (Nat.not_lt.mpr full)]

/-- A form ends as what is inside it does with one more form open, or it exceeds
the limit. -/
theorem ending_of_nested {α : Type} {limit : Nat} {inner : Action α} {state : State}
    {ending : Ending α} (ended : nested limit inner state = some ending) :
    (∃ result after, state.depth < limit ∧
      inner { state with depth := state.depth + 1 } = some ⟨result, after⟩ ∧
        ending = ⟨result, { after with depth := after.depth - 1 }⟩) ∨
      limit ≤ state.depth ∧ ending = ⟨.error (.depthExceeded limit), state⟩ := by
  by_cases room : state.depth < limit
  · rw [nested, if_pos room] at ended
    split at ended
    · cases ended
    next result after found =>
      cases ended
      exact .inl ⟨result, after, room, found, rfl⟩
  · have full := Nat.not_lt.mp room
    rw [nested_of_le inner full] at ended
    cases ended
    exact .inr ⟨full, rfl⟩

end Action

end JsonForms
