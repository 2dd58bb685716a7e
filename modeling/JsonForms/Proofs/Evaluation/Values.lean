import JsonForms.Proofs.Evaluation.Steps

/-!
# Values that an evaluation comes by

An evaluation makes a few values by itself, computes others from those, and reads
the rest from variables. So a condition on values which holds of what is made,
lasts under what is computed and holds of all variables at the start holds of
everything that an evaluation comes by: its result, the variables wherever it
comes to, and what it prints.
-/

namespace JsonForms

/-- A condition that holds of all values which an evaluation makes by itself and
of all that an arithmetic computes from values of the condition. -/
structure Value.Closed (arithmetic : Arithmetic) (Admits : Value → Prop) : Prop
    extends Value.Primitive Admits where
  abs : ∀ {value result}, Admits value → arithmetic.abs value = .ok result → Admits result
  add : ∀ {left right result}, Admits left → Admits right →
    arithmetic.add left right = .ok result → Admits result

/-- Every variable has an admitted value. -/
def Environment.All (Admits : Value → Prop) (environment : Environment) : Prop :=
  ∀ name value, environment.get? name = some value → Admits value

variable {Admits : Value → Prop}

namespace Environment

/-- Without variables all of them have admitted values. -/
theorem all_empty : empty.All Admits := by
  intro name value found
  rw [get?_empty] at found
  cases found

/-- Setting a variable to an admitted value keeps all values admitted. -/
theorem All.set {environment : Environment} (all : environment.All Admits) {value : Value}
    (admitted : Admits value) (name : String) : (environment.set name value).All Admits := by
  intro other found same
  rw [get?_set] at same
  split at same
  · cases same
    exact admitted
  · exact all other found same

end Environment

/-- From states whose variables have admitted values, the second action does what
the first one does. The variables have such values again afterwards, and a value
of the action satisfies its own condition. -/
def Action.Supplies (Admits : Value → Prop) {α : Type} (post : α → Prop)
    (plain other : Action α) : Prop :=
  ∀ state, state.environment.All Admits → other state = plain state ∧
    ∀ ending, plain state = some ending → ending.state.environment.All Admits ∧
      ∀ value, ending.result = .ok value → post value

namespace Action

/-- A result supplies the value that is in it. -/
theorem supplies_ofExcept {α : Type} {post : α → Prop} {result : Except EvalError α}
    (admitted : ∀ value, result = .ok value → post value) :
    Supplies Admits post (ofExcept result) (ofExcept result) := by
  intro state all
  refine ⟨rfl, fun ending ended => ?_⟩
  cases ended
  exact ⟨all, admitted⟩

/-- The second action of a sequence may rely on what the first one supplies. -/
theorem Supplies.bind {α β : Type} {between : α → Prop} {post : β → Prop}
    {first second : Action α} {next after : α → Action β}
    (supplies : Supplies Admits between first second)
    (suppliesNext : ∀ value, between value → Supplies Admits post (next value) (after value)) :
    Supplies Admits post (first.bind next) (second.bind after) := by
  intro state all
  obtain ⟨same, ends⟩ := supplies _ all
  refine bind_same same (fun error middle found => ⟨(ends _ found).1, nofun⟩)
    fun value middle found => ?_
  obtain ⟨allBetween, admitted⟩ := ends _ found
  exact suppliesNext value (admitted value rfl) _ allBetween

/-- Supplying values is respected by sequencing. -/
theorem supplies_sequenced (primitive : Value.Primitive Admits) :
    Sequenced Admits (fun {_} post first second => Supplies Admits post first second) where
  toPrimitive := primitive
  pure admitted := supplies_ofExcept fun value same => by cases same; exact admitted
  bind := Supplies.bind
  andThen supplies suppliesNext := supplies.bind fun _ _ => suppliesNext

/-- An action that does not end supplies anything. -/
theorem supplies_diverging {α : Type} {post : α → Prop} :
    Supplies Admits post (fun _ => none : Action α) (fun _ => none) :=
  fun _ _ => ⟨rfl, fun _ ended => nomatch ended⟩

/-- Looking up a variable supplies an admitted value. -/
theorem supplies_lookup (name : String) : Supplies Admits Admits (lookup name) (lookup name) := by
  intro state all
  refine ⟨rfl, fun ending ended => ?_⟩
  unfold lookup at ended
  split at ended
  next value found =>
    cases ended
    exact ⟨all, fun _ same => by cases same; exact all name value found⟩
  next =>
    cases ended
    exact ⟨all, nofun⟩

/-- Setting a variable to an admitted value keeps all values admitted. -/
theorem supplies_assign (name : String) {value : Value} (admitted : Admits value) :
    Supplies Admits (fun _ => True) (assign name value) (assign name value) := by
  intro state all
  refine ⟨rfl, fun ending ended => ?_⟩
  cases ended
  exact ⟨all.set admitted name, fun _ _ => trivial⟩

/-- Announcing an operation changes no variable. -/
theorem supplies_announce (operation : Operation) :
    Supplies Admits (fun _ => True) (announce operation) (announce operation) := by
  intro state all
  refine ⟨rfl, fun ending ended => ?_⟩
  cases ended
  exact ⟨all, fun _ _ => trivial⟩

/-- Printing changes no variable. -/
theorem supplies_writeLine (value : Value) :
    Supplies Admits (fun _ => True) (writeLine value) (writeLine value) := by
  intro state all
  refine ⟨rfl, fun ending ended => ?_⟩
  rw [writeLine_eq] at ended
  split at ended <;> cases ended <;> exact ⟨all, fun _ _ => trivial⟩

/-- A form supplies what is supplied inside it. -/
theorem Supplies.nested {α : Type} {post : α → Prop} {inner other : Action α}
    (supplies : Supplies Admits post inner other) (limit : Nat) :
    Supplies Admits post (nested limit inner) (nested limit other) := by
  intro state all
  by_cases room : state.depth < limit
  · obtain ⟨same, ends⟩ := supplies { state with depth := state.depth + 1 } all
    rcases found : inner { state with depth := state.depth + 1 } with _ | ⟨result, after⟩
    all_goals rw [found] at same
    · rw [nested_of_none room found, nested_of_none room same]
      exact ⟨rfl, fun _ ended => nomatch ended⟩
    · rw [nested_of_lt room found, nested_of_lt room same]
      refine ⟨rfl, fun ending ended => ?_⟩
      cases ended
      exact ends ⟨result, after⟩ found
  · have full := Nat.not_lt.mp room
    rw [nested_of_le _ full, nested_of_le _ full]
    refine ⟨rfl, fun ending ended => ?_⟩
    cases ended
    exact ⟨all, nofun⟩

end Action

namespace Machine

/-- Whatever an opened list does, it does with admitted values. -/
theorem supplies_congruentAt {machine : Machine} (closed : Value.Closed machine.arithmetic Admits)
    (expr : Expr) : CongruentAt machine machine expr Admits
      (fun {_} post first second => Action.Supplies Admits post first second) where
  toSequenced := Action.supplies_sequenced closed.toPrimitive
  sameMemory := rfl
  fail _ := Action.supplies_ofExcept nofun
  lookup _ := Action.supplies_lookup _
  assign _ admitted := Action.supplies_assign _ admitted
  writeLine _ _ := Action.supplies_writeLine _
  abs _ admitted := Action.supplies_ofExcept fun _ computed => closed.abs admitted computed
  add _ first second := Action.supplies_ofExcept fun _ computed => closed.add first second computed
  loop _ tests bodies := (Action.supplies_sequenced closed.toPrimitive).loop
    Action.supplies_diverging tests bodies _

/-- An evaluation does everything with admitted values, and breakpoints in states
with other variables are not reached. -/
theorem supplies_evaluateUntil {machine : Machine}
    (closed : Value.Closed machine.arithmetic Admits) {points : Expr → State → Prop}
    (avoids : ∀ part state, points part state → ¬ state.environment.All Admits)
    (error : EvalError) (expr : Expr) :
    Action.Supplies Admits Admits (machine.evaluate expr)
      (machine.evaluateUntil (breakpoints points error) expr) := by
  rw [← evaluateUntil_never]
  refine (Action.supplies_sequenced closed.toPrimitive).evaluateUntil
    (fun _ _ => supplies_congruentAt closed _) Action.supplies_announce
    (fun supplies => supplies.nested _) ?_
  intro part plain other _ supplies state all
  have free := breakpoints_of_not_mem (fun there => avoids part state there all) error
  rw [Action.stopping_of_none free, Action.stopping_of_none rfl]
  exact supplies state all

variable {arithmetic : Arithmetic} {memory : Memory} {limit : Nat} {program : Expr} {state : State}

/-- An evaluation from admitted variables leaves admitted variables, whether it
fails or not, and its value is admitted. -/
theorem Ends.admitted {ending : Ending Value}
    (ends : Ends arithmetic memory limit program state ending)
    (closed : Value.Closed arithmetic Admits) (all : state.environment.All Admits) :
    ending.state.environment.All Admits ∧ ∀ value, ending.result = .ok value → Admits value := by
  obtain ⟨passes, ended⟩ := ends
  have nowhere : ∀ part there, (fun _ _ => False : Expr → State → Prop) part there →
      ¬ there.environment.All Admits := fun _ _ never => never.elim
  exact (@supplies_evaluateUntil Admits ⟨arithmetic, memory, limit, passes⟩ closed _ nowhere
    (.depthExceeded limit) program state all).2 ending ended

/-- The variables have admitted values wherever an evaluation from such variables
comes to. -/
theorem Visits.admitted {part : Expr} {there : State}
    (visits : Visits arithmetic memory limit program state part there)
    (closed : Value.Closed arithmetic Admits)
    (all : state.environment.All Admits) : there.environment.All Admits := by
  by_contra outside
  have avoids : ∀ expr reached, expr = part ∧ reached = there →
      ¬ reached.environment.All Admits := by
    rintro _ _ ⟨rfl, rfl⟩
    exact outside
  refine visits.not_unchanged fun passes error => ?_
  exact (@supplies_evaluateUntil Admits ⟨arithmetic, memory, limit, passes⟩ closed _ avoids error
    program state all).1

end Machine

end JsonForms
