import JsonForms.Program
import JsonForms.Proofs.Evaluation.Steps
import JsonForms.Proofs.Grammar.RoundTrip
import Mathlib.Data.Finset.Card

/-!
# Reported assignments

The variables of an evaluation and the assignments it reports are changed by
separate operations, but they always tell the same story: at every moment the
variables are those at the start after the reported assignments, in order. So
the value of a variable is the one reported last for it, wherever in the program
it is set and wherever it is read.
-/

namespace JsonForms

/-- The value that an event reports for a variable. -/
def Event.valueOf? (name : String) : Event → Option Value
  | .dispatch _ _ => none
  | .set other value => if other = name then some value else none

/-- The variable that an event reports to be set. -/
def Event.assigned? : Event → Option String
  | .dispatch _ _ => none
  | .set name _ => some name

/-- The value that the last event for a variable reports. -/
def latest? (events : List Event) (name : String) : Option Value :=
  events.reverse.findSome? (Event.valueOf? name)

/-- The last event decides if it is one for the variable. -/
theorem latest?_append_singleton (events : List Event) (event : Event) (name : String) :
    latest? (events ++ [event]) name = (event.valueOf? name).or (latest? events name) := by
  rw [latest?, List.reverse_append, List.reverse_singleton, List.singleton_append,
    List.findSome?_cons]
  cases event.valueOf? name <;> rfl

/-- A variable has a last event exactly when it is among those set. -/
theorem isSome_latest?_iff (events : List Event) (name : String) :
    (latest? events name).isSome ↔ name ∈ events.filterMap Event.assigned? := by
  induction events using List.reverseRecOn with
  | nil => simp [latest?]
  | append_singleton events event inductionHypothesis =>
      rw [latest?_append_singleton, Option.isSome_or, Bool.or_eq_true, inductionHypothesis,
        List.filterMap_append, List.mem_append, or_comm]
      refine or_congr_right ?_
      cases event with
      | dispatch operation depth => simp [Event.valueOf?, Event.assigned?]
      | set other value =>
          have named : [Event.set other value].filterMap Event.assigned? = [other] := rfl
          rw [named, List.mem_singleton, Event.valueOf?]
          split
          next same => exact iff_of_true rfl same.symm
          next differ => exact iff_of_false Bool.false_ne_true (Ne.symm differ)

namespace Environment

/-- The variables after an event. -/
def after (environment : Environment) : Event → Environment
  | .dispatch _ _ => environment
  | .set name value => environment.set name value

/-- The variables after events, in order. -/
def replay (environment : Environment) (events : List Event) : Environment :=
  events.foldl after environment

/-- The last event is replayed last. -/
theorem replay_append_singleton (environment : Environment) (events : List Event)
    (event : Event) :
    environment.replay (events ++ [event]) = (environment.replay events).after event := by
  rw [replay, List.foldl_append]
  rfl

/-- An event that sets the variable gives it its value, and all others leave it. -/
theorem get?_after (environment : Environment) (event : Event) (name : String) :
    (environment.after event).get? name = (event.valueOf? name).or (environment.get? name) := by
  cases event with
  | dispatch => rfl
  | set other value =>
      rw [after, get?_set, Event.valueOf?]
      split <;> rfl

/-- After events a variable has the value that the last event for it reports. -/
theorem get?_replay (environment : Environment) (events : List Event) (name : String) :
    (environment.replay events).get? name =
      (latest? events name).or (environment.get? name) := by
  induction events using List.reverseRecOn with
  | nil => rfl
  | append_singleton events event inductionHypothesis =>
      rw [replay_append_singleton, get?_after, inductionHypothesis, latest?_append_singleton,
        Option.or_assoc]

/-- From no variables, events make as many bindings as they name variables. -/
theorem size_replay_empty (events : List Event) :
    (empty.replay events).size = (events.filterMap Event.assigned?).toFinset.card := by
  induction events using List.reverseRecOn with
  | nil => rfl
  | append_singleton events event inductionHypothesis =>
      rw [replay_append_singleton, List.filterMap_append, List.toFinset_append]
      cases event with
      | dispatch operation depth =>
          have unnamed : [Event.dispatch operation depth].filterMap Event.assigned? = [] := rfl
          rw [after, inductionHypothesis, unnamed, List.toFinset_nil, Finset.union_empty]
      | set name value =>
          have bound : ((empty.replay events).get? name).isSome ↔
              name ∈ (events.filterMap Event.assigned?).toFinset := by
            rw [get?_replay, get?_empty, Option.or_none, isSome_latest?_iff, List.mem_toFinset]
          have named : ([Event.set name value].filterMap Event.assigned?).toFinset = {name} := rfl
          rw [after, size_set, inductionHypothesis, named, Finset.union_comm,
            ← Finset.insert_eq]
          split
          next isBound => rw [Finset.insert_eq_of_mem (bound.mp isBound)]
          next isNew => rw [Finset.card_insert_of_notMem (mt bound.mpr isNew)]

end Environment

/-- The events since a state, and that they account for the variables. -/
structure State.Accounts (start there : State) (reported : List Event) : Prop where
  events : there.events.toList = start.events.toList ++ reported
  environment : there.environment = start.environment.replay reported

namespace State

/-- Where nothing has been done, nothing has to be accounted for. -/
theorem accounts_self (start : State) : start.Accounts start [] where
  events := (List.append_nil _).symm
  environment := rfl

/-- What is accounted for since a state on the way is accounted for since the start. -/
theorem Accounts.trans {start there next : State} {before after : List Event}
    (first : start.Accounts there before) (second : there.Accounts next after) :
    start.Accounts next (before ++ after) where
  events := by rw [second.events, first.events, List.append_assoc]
  environment := by
    rw [second.environment, first.environment, Environment.replay, Environment.replay,
      Environment.replay, List.foldl_append]

/-- One more event is accounted for when it makes the variables what they are. -/
theorem Accounts.report {start there next : State} {reported : List Event} {event : Event}
    (accounts : start.Accounts there reported) (events : next.events = there.events.push event)
    (environment : next.environment = there.environment.after event) :
    start.Accounts next (reported ++ [event]) where
  events := by rw [events, Array.toList_push, accounts.events, List.append_assoc]
  environment := by
    rw [environment, accounts.environment, Environment.replay_append_singleton]

/-- Accounted changes take no binding away. -/
theorem Accounts.isSome_get? {start there : State} {reported : List Event}
    (accounts : start.Accounts there reported) {name : String}
    (bound : (start.environment.get? name).isSome) : (there.environment.get? name).isSome := by
  rw [accounts.environment, Environment.get?_replay, Option.isSome_or, bound, Bool.or_true]

/-- That reported assignments account for the variables is invariant. -/
theorem invariant_accounts (start : State) (base limit : Nat) :
    Invariant base limit fun there => base ≤ there.depth ∧
      ∃ reported, start.Accounts there reported where
  above holds := holds.1
  step := by
    rintro there next ⟨above, reported, accounts⟩ step
    refine ⟨step.base_le above, ?_⟩
    cases step with
    | opened operation => exact ⟨_, accounts.report rfl rfl⟩
    | closed => exact ⟨reported, accounts.events, accounts.environment⟩
    | assigned name value => exact ⟨_, accounts.report rfl rfl⟩
    | wrote => exact ⟨reported, accounts.events, accounts.environment⟩

/-- Opening a form adds an event that sets nothing. -/
theorem accounts_opened (start : State) (operation : Operation) :
    start.depth + 1 ≤ (start.opened operation).depth ∧
      ∃ reported, start.Accounts (start.opened operation) reported :=
  ⟨Nat.le_refl _, _, start.accounts_self.report rfl rfl⟩

end State

namespace Machine

variable {arithmetic : Arithmetic} {memory : Memory} {limit : Nat} {program : Expr} {state : State}

/-- However an evaluation ends, the events it reports account for its variables. -/
theorem Ends.accounts {ending : Ending Value}
    (ends : Ends arithmetic memory limit program state ending) :
    ∃ reported, state.Accounts ending.state reported := by
  obtain unchanged | ⟨inner, ⟨_, reported, accounts⟩, _, closed⟩ :=
    ends.within (state.invariant_accounts _ limit) fun operation _ =>
      state.accounts_opened operation
  · exact ⟨[], unchanged ▸ state.accounts_self⟩
  · exact ⟨reported, closed ▸ ⟨accounts.events, accounts.environment⟩⟩

/-- Wherever an evaluation comes to, the events reported so far account for its
variables. -/
theorem Reaches.accounts {points : Expr → State → Prop}
    (reaches : Reaches arithmetic memory limit program state points) :
    ∃ part there, points part there ∧ ∃ reported, state.Accounts there reported := by
  obtain ⟨part, there, point, rfl | ⟨_, accounts⟩⟩ :=
    reaches.within (state.invariant_accounts _ limit) fun operation _ =>
      state.accounts_opened operation
  · exact ⟨part, there, point, [], there.accounts_self⟩
  · exact ⟨part, there, point, accounts⟩

/-- What reading a variable gives, by the value it has, if any. -/
def reading (name : String) : Option Value → Except EvalError Value
  | some value => .ok value
  | none => .error (.undefinedVariable name)

/-- A form that reads a variable announces itself and looks the variable up. -/
theorem evaluate_get (machine : Machine) (name : String) :
    machine.evaluate (.form Operation.get.name [.str name]) =
      Action.nested machine.limit ((Action.announce .get).bind fun _ => Action.lookup name) := by
  rw [Expr.form, evaluate_list, operands_eq_map]
  rfl

/-- A form that reads a variable reports itself and gives the value. -/
theorem ends_get {there : State} (room : there.depth < limit) (name : String) :
    Ends arithmetic memory limit (.form Operation.get.name [.str name]) there
      ⟨reading name (there.environment.get? name),
        { there with events := there.events.push (.dispatch .get (there.depth + 1)) }⟩ := by
  refine ⟨0, ?_⟩
  rw [evaluate_get, Action.nested_announce room]
  have same : (there.opened .get).environment.get? name = there.environment.get? name := rfl
  rw [Action.lookup, same]
  cases there.environment.get? name <;> rfl

end Machine

namespace Log

/-- The variable that a record tells to be set. -/
def Record.assigned? (record : Record) : Option String :=
  if record.message = "set" then record.fields.lookup "name" else none

/-- The record of an event tells the variable that the event sets. -/
theorem assigned?_ofEvent (event : Event) : (ofEvent event).assigned? = event.assigned? := by
  cases event <;> rfl

end Log

/-- The log of a run that gave a value ends with the number of variables whose
setting is in it. -/
theorem Run.bindings_of_ok [memory : Memory] {source : Source} {sink : Sink} {limit : Nat}
    {run : Run} {value : Value} (ran : Run.ofSource source sink limit = some run)
    (succeeded : run.result = .ok value) :
    ∃ record, run.log.getLast? = some record ∧ record.message = "evaluation finished" ∧
      record.fields.lookup "bindings" =
        some (toString (run.log.filterMap Log.Record.assigned?).toFinset.card) := by
  unfold Run.ofSource at ran
  split at ran
  · cases ran
    cases succeeded
  next program _ =>
    obtain ⟨⟨result, session⟩, evaluated, rfl⟩ := Option.map_eq_some_iff.mp ran
    cases result with
    | error => cases succeeded
    | ok final =>
        obtain ⟨⟨_, after⟩, ended, same⟩ := Option.map_eq_some_iff.mp evaluated
        cases same
        have ends : Machine.Ends .word64 memory limit program ⟨.empty, sink, #[], 0⟩
            ⟨.ok final, after⟩ :=
          ⟨amplePasses, ended⟩
        obtain ⟨reported, events, environment⟩ := ends.accounts
        have names : (after.events.toList.map Log.ofEvent).filterMap Log.Record.assigned? =
            reported.filterMap Event.assigned? := by
          rw [events, List.filterMap_map]
          exact List.filterMap_congr fun event _ => Log.assigned?_ofEvent event
        refine ⟨_, List.getLast?_concat, rfl, ?_⟩
        dsimp only
        rw [List.filterMap_append, List.filterMap_append, names]
        have size : after.environment.size =
            (reported.filterMap Event.assigned?).toFinset.card := by
          rw [environment]
          exact Environment.size_replay_empty reported
        simp [Log.finished, Log.Record.assigned?, Log.decoded, Log.ready, size, List.lookup_cons]

namespace Machine

/-- However an evaluation ends, its variables are those at the start after the
assignments it reports, so each of them has the value reported last for it. A
form that reads a variable, wherever the evaluation comes to it, gives the value
last reported before. And when a run gives a value, the number of variables in
its log is the number of those whose setting is in it. -/
theorem assignments_account_for_variables (arithmetic : Arithmetic) (memory : Memory) (limit : Nat)
    (program : Expr) (state : State) :
    (∀ ending, Ends arithmetic memory limit program state ending →
      ∃ reported, ending.state.events.toList = state.events.toList ++ reported ∧
        ending.state.environment = state.environment.replay reported ∧
        ∀ name, ending.state.environment.get? name =
          (latest? reported name).or (state.environment.get? name)) ∧
    (∀ name there,
      Visits arithmetic memory limit program state (.form Operation.get.name [.str name]) there →
      there.depth < limit →
      ∃ reported, there.events.toList = state.events.toList ++ reported ∧
        Ends arithmetic memory limit (.form Operation.get.name [.str name]) there
          ⟨reading name ((latest? reported name).or (state.environment.get? name)),
            { there with events := there.events.push (.dispatch .get (there.depth + 1)) }⟩) ∧
    (∀ source sink bound run value, Run.ofSource source sink bound = some run →
      run.result = .ok value →
      ∃ record, run.log.getLast? = some record ∧ record.message = "evaluation finished" ∧
        record.fields.lookup "bindings" =
          some (toString (run.log.filterMap Log.Record.assigned?).toFinset.card)) := by
  refine ⟨fun ending ends => ?_, fun name there visits room => ?_,
    fun _ _ _ _ _ ran succeeded => Run.bindings_of_ok ran succeeded⟩
  · obtain ⟨reported, events, environment⟩ := ends.accounts
    refine ⟨reported, events, environment, fun name => ?_⟩
    rw [environment, Environment.get?_replay]
  · obtain ⟨_, _, ⟨rfl, rfl⟩, reported, events, environment⟩ := Reaches.accounts visits
    refine ⟨reported, events, ?_⟩
    rw [← Environment.get?_replay, ← environment]
    exact ends_get room name

/-- A variable that is set is read after it in the state that setting it left. -/
theorem visits_get :
    let start : State := ⟨Environment.empty.set "x" (.str "old"), .unlimited, #[], 0⟩
    let there : State := ⟨start.environment.set "x" (.int 1), .unlimited,
      #[.dispatch .seq 1, .dispatch .set 2, .set "x" (.int 1)], 1⟩
    Visits .word64 (.below 16) 2
      (.form "seq" [.form "set" [.str "x", .int 1], .form "get" [.str "x"]]) start
      (.form "get" [.str "x"]) there := by
  intro start there
  refine ⟨0, fun error => ⟨there.withDepth 0, ?_⟩⟩
  generalize found : breakpoints _ error = stop
  have free : ∀ part, part ≠ Expr.form "get" [.str "x"] → stop part = fun _ => none := by
    intro part differ
    funext there
    rw [← found]
    exact breakpoints_of_not_mem (fun point => differ point.1) error
  let machine : Machine := ⟨.word64, .below 16, 2, 0⟩
  have set : machine.evaluateUntil stop (.form "set" [.str "x", .int 1])
      (start.opened .seq) = some ⟨.ok (.int 1), there⟩ := by
    rw [evaluateUntil_eq_evaluate fun part inside => free part ?_]
    · rfl
    · rintro rfl
      obtain same | ⟨item, member, inside⟩ := Expr.contains_list_iff.mp inside
      · exact absurd same (by decide)
      · obtain _ | ⟨_, _ | ⟨_, _ | ⟨_, ⟨⟩⟩⟩⟩ := member <;> cases inside
  have get : machine.evaluateUntil stop (.form "get" [.str "x"]) there =
      some ⟨.error error, there⟩ := by
    rw [Expr.form, evaluateUntil_list]
    refine Action.stopping_of_some ?_ _
    rw [← found]
    exact breakpoints_of_mem ⟨rfl, rfl⟩ error
  rw [Expr.form, evaluateUntil_list, free _ (by decide), operandsUntil_eq_map]
  change Action.nested 2 ((Action.announce .seq).bind fun _ =>
    (machine.evaluateUntil stop (.form "set" [.str "x", .int 1])).bind fun _ =>
      machine.evaluateUntil stop (.form "get" [.str "x"])) start = _
  rw [Action.nested_announce (by decide), Action.bind_of_ok set, get]
  rfl

/-- A variable that is set inside a form and read after it. -/
theorem assignments_account_for_variables_set :
    let program := Expr.form "seq" [.form "set" [.str "x", .int 1], .form "get" [.str "x"]]
    let start : State := ⟨Environment.empty.set "x" (.str "old"), .unlimited, #[], 0⟩
    let there : State := ⟨start.environment.set "x" (.int 1), .unlimited,
      #[.dispatch .seq 1, .dispatch .set 2, .set "x" (.int 1)], 1⟩
    (∃ ending, Ends .word64 (.below 16) 2 program start ending ∧
      ending.state.environment.get? "x" = some (.int 1)) ∧
    (Visits .word64 (.below 16) 2 program start (.form "get" [.str "x"]) there ∧
      ∃ after, Ends .word64 (.below 16) 2 (.form "get" [.str "x"]) there ⟨.ok (.int 1), after⟩) ∧
    ∃ run record, @Run.ofSource (.below 16) ⟨"p", program.text⟩ .unlimited 2 = some run ∧
      run.result = .ok (.int 1) ∧ run.log.getLast? = some record ∧
      record.fields.lookup "bindings" = some "1" := by
  intro program start there
  have accounts := assignments_account_for_variables .word64 (.below 16) 2 program start
  have ends : Ends .word64 (.below 16) 2 program start
      ⟨.ok (.int 1), { there with events := there.events.push (.dispatch .get 2), depth := 0 }⟩ :=
    ⟨0, rfl⟩
  have visits : Visits .word64 (.below 16) 2 program start (.form "get" [.str "x"]) there :=
    visits_get
  have ran : @Run.ofSource (.below 16) ⟨"p", program.text⟩ .unlimited 2 =
      some ⟨.ok (.int 1), .unlimited, [Log.decoded "p", Log.ready 13,
        Log.ofEvent (.dispatch .seq 1), Log.ofEvent (.dispatch .set 2),
        Log.ofEvent (.set "x" (.int 1)), Log.ofEvent (.dispatch .get 2),
        Log.finished (.int 1) (Environment.empty.set "x" (.int 1))]⟩ := by
    have decoded := Expr.decode_text "p" program
    unfold Run.ofSource
    rw [decoded]
    rfl
  refine ⟨⟨_, ends, ?_⟩, ⟨visits, ?_⟩, ?_⟩
  · obtain ⟨reported, events, _, latest⟩ := accounts.1 _ ends
    rw [latest "x", ← show _ = reported from events]
    rfl
  · obtain ⟨reported, events, gives⟩ := accounts.2.1 "x" there visits (by decide)
    cases show _ = reported from events
    exact ⟨_, gives⟩
  · obtain ⟨record, last, _, bindings⟩ := accounts.2.2 _ _ _ _ _ ran rfl
    exact ⟨_, record, ran, rfl, last, bindings⟩

end Machine

end JsonForms
