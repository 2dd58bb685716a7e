import JsonForms.Proofs.Evaluation.Steps

/-!
# Evaluations from two states

One program is evaluated from two states. They may differ in variables that the
program does not read, in what was written and reported before, and in the
number of open forms if the limit differs by as much. The two evaluations then
go abreast: `State.Abreast` is what their states have in common all along, and
nothing that is done on one side is missing on the other.

Variables that are read have one value on both sides at every moment. Of another
variable it can only be said that it has, until it is set for the first time,
the value that it had on its own side.
-/

namespace JsonForms

/-- The error that is raised with so many more forms open, under a limit that is
higher by as much. -/
def EvalError.deeper (more : Nat) : EvalError → EvalError
  | .depthExceeded limit => .depthExceeded (limit + more)
  | error => error

/-- The event that is reported with so many more forms open. -/
def Event.deeper (more : Nat) : Event → Event
  | .dispatch operation depth => .dispatch operation (depth + more)
  | event => event

/-- With no more forms open, errors stay as they are. -/
@[simp]
theorem EvalError.deeper_zero : EvalError.deeper 0 = id := by
  funext error
  cases error <;> rfl

/-- With no more forms open, events stay as they are. -/
@[simp]
theorem Event.deeper_zero : Event.deeper 0 = id := by
  funext event
  cases event <;> rfl

/-- With no more forms open, results stay as they are. -/
theorem mapError_deeper_zero {α : Type} (result : Except EvalError α) :
    result.mapError (EvalError.deeper 0) = result := by
  rw [EvalError.deeper_zero]
  cases result <;> rfl

/-! ## States -/

/-- Sinks with as much room that refuse alike. A sink that takes everything
never refuses. -/
structure Sink.Alike (sink other : Sink) : Prop where
  room : other.room = sink.room
  refusal : sink.room ≠ none → other.refusal = sink.refusal

/-- Sinks that are alike take the same bytes and stay alike. -/
theorem Sink.Alike.write {sink other : Sink} (alike : sink.Alike other) (bytes : ByteArray) :
    (other.write bytes).1 = (sink.write bytes).1 ∧
      (sink.write bytes).2.Alike (other.write bytes).2 ∧
      ∃ taken, (sink.write bytes).2.written = sink.written ++ taken ∧
        (other.write bytes).2.written = other.written ++ taken := by
  obtain ⟨written, room, refusal⟩ := sink
  obtain ⟨otherWritten, otherRoom, otherRefusal⟩ := other
  obtain rfl : otherRoom = room := alike.room
  cases otherRoom with
  | none => exact ⟨rfl, ⟨rfl, nofun⟩, bytes, rfl, rfl⟩
  | some room =>
      obtain rfl : otherRefusal = refusal := alike.refusal nofun
      simp only [Sink.write]
      split
      · exact ⟨rfl, ⟨rfl, fun _ => rfl⟩, bytes, rfl, rfl⟩
      · exact ⟨rfl, ⟨rfl, fun _ => rfl⟩, bytes.extract 0 room, rfl, rfl⟩

/-- Two states, each reached from its own start, between which the same has been
done. The second one has so many more open forms. -/
structure State.Abreast (more : Nat) (start otherStart state other : State) : Prop where
  depth : other.depth = state.depth + more
  sink : state.sink.Alike other.sink
  written : ∃ bytes, state.sink.written = start.sink.written ++ bytes ∧
    other.sink.written = otherStart.sink.written ++ bytes
  events : ∃ reported, state.events = start.events ++ reported ∧
    other.events = otherStart.events ++ reported.map (Event.deeper more)
  bindings : ∀ name,
    state.environment.get? name = start.environment.get? name ∧
      other.environment.get? name = otherStart.environment.get? name ∨
    other.environment.get? name = state.environment.get? name

/-- The starts are abreast of each other when their numbers of open forms and their sinks agree. -/
theorem State.abreast_start {more : Nat} {start otherStart : State}
    (depth : otherStart.depth = start.depth + more) (sink : start.sink.Alike otherStart.sink) :
    Abreast more start otherStart start otherStart where
  depth := depth
  sink := sink
  written := ⟨.empty, by simp⟩
  events := ⟨#[], by simp⟩
  bindings _ := .inl ⟨rfl, rfl⟩

namespace State.Abreast

variable {more : Nat} {start otherStart state other : State}

/-- A variable that had one value at both starts has one value. -/
theorem get?_eq (abreast : Abreast more start otherStart state other) {name : String}
    (agree : start.environment.get? name = otherStart.environment.get? name) :
    other.environment.get? name = state.environment.get? name := by
  obtain ⟨kept, otherKept⟩ | same := abreast.bindings name
  · rw [kept, otherKept, agree]
  · exact same

/-- States that start with the same variables have the same variables. -/
theorem environment_eq (abreast : Abreast more start otherStart state other)
    (same : start.environment = otherStart.environment) :
    other.environment = state.environment := by
  ext1 name
  exact abreast.get?_eq (by rw [same])

/-- Sinks that start with the same bytes hold the same bytes. -/
theorem written_eq (abreast : Abreast more start otherStart state other)
    (same : start.sink.written = otherStart.sink.written) :
    other.sink.written = state.sink.written := by
  obtain ⟨bytes, written, otherWritten⟩ := abreast.written
  rw [written, otherWritten, same]

/-- States stay abreast when as many forms are opened or closed on both sides. -/
theorem withDepth (abreast : Abreast more start otherStart state other) {depth otherDepth : Nat}
    (level : otherDepth = depth + more) :
    Abreast more start otherStart (state.withDepth depth) (other.withDepth otherDepth) where
  depth := level
  sink := abreast.sink
  written := abreast.written
  events := abreast.events
  bindings := abreast.bindings

/-- States stay abreast when an event is reported on both sides, each with its own number of open
forms. -/
theorem report (abreast : Abreast more start otherStart state other) (event : Event) :
    Abreast more start otherStart { state with events := state.events.push event }
      { other with events := other.events.push (event.deeper more) } where
  depth := abreast.depth
  sink := abreast.sink
  written := abreast.written
  events := by
    obtain ⟨reported, events, otherEvents⟩ := abreast.events
    refine ⟨reported.push event, ?_, ?_⟩
    · rw [events, Array.append_push]
    · rw [otherEvents, Array.map_push, Array.append_push]
  bindings := abreast.bindings

/-- States stay abreast when a variable is set to one value on both sides. -/
theorem assigned (abreast : Abreast more start otherStart state other) (name : String)
    (value : Value) :
    Abreast more start otherStart (state.assigned name value) (other.assigned name value) where
  depth := abreast.depth
  sink := abreast.sink
  written := abreast.written
  events := (abreast.report (.set name value)).events
  bindings other := by
    simp only [State.assigned, Environment.get?_set]
    split
    · exact .inr rfl
    · exact abreast.bindings other

/-- States stay abreast when the same bytes are written on both sides, whether or not they are
taken. -/
theorem wrote (abreast : Abreast more start otherStart state other) (bytes : ByteArray) :
    Abreast more start otherStart { state with sink := (state.sink.write bytes).2 }
      { other with sink := (other.sink.write bytes).2 } where
  depth := abreast.depth
  sink := (abreast.sink.write bytes).2.1
  written := by
    obtain ⟨before, written, otherWritten⟩ := abreast.written
    obtain ⟨_, _, taken, now, otherNow⟩ := abreast.sink.write bytes
    refine ⟨before ++ taken, ?_, ?_⟩
    · rw [now, written, ByteArray.append_assoc]
    · rw [otherNow, otherWritten, ByteArray.append_assoc]
  events := abreast.events
  bindings := abreast.bindings

end State.Abreast

/-! ## Actions -/

/-- From states that are abreast both actions end or neither does. Their results
are the same, apart from the limit in an error, their final states are abreast
again, and forms that are opened are closed. -/
def Action.Abreast (more : Nat) (start otherStart : State) {α : Type}
    (action other : Action α) : Prop :=
  ∀ there beside, State.Abreast more start otherStart there beside →
    action there = none ∧ other beside = none ∨
    ∃ result after final, action there = some ⟨result, after⟩ ∧
      other beside = some ⟨result.mapError (EvalError.deeper more), final⟩ ∧
      State.Abreast more start otherStart after final ∧ after.depth = there.depth

namespace Action

variable {more : Nat} {start otherStart : State} {α β : Type}

/-- Results that say nothing about the limit are the same on both sides. -/
theorem abreast_ofExcept {result : Except EvalError α}
    (same : result.mapError (EvalError.deeper more) = result) :
    Abreast more start otherStart (ofExcept result) (ofExcept result) :=
  fun there beside abreast => .inr ⟨result, there, beside, rfl, by rw [same]; rfl, abreast, rfl⟩

/-- Actions that do not end go abreast. -/
theorem abreast_diverging :
    Abreast more start otherStart (fun _ => none : Action α) (fun _ => none) :=
  fun _ _ _ => .inl ⟨rfl, rfl⟩

/-- Actions go abreast one after another. -/
theorem Abreast.bind {first second : Action α} {next after : α → Action β}
    (abreast : Abreast more start otherStart first second)
    (abreastNext : ∀ value, Abreast more start otherStart (next value) (after value)) :
    Abreast more start otherStart (first.bind next) (second.bind after) := by
  intro there beside states
  obtain ⟨unended, otherUnended⟩ | ⟨result, middle, between, ended, otherEnded, reached, level⟩ :=
    abreast there beside states
  · exact .inl ⟨bind_of_none unended next, bind_of_none otherUnended after⟩
  · cases result with
    | error error =>
        exact .inr ⟨.error error, middle, between, bind_of_error ended next,
          bind_of_error otherEnded after, reached, level⟩
    | ok value =>
        rw [bind_of_ok ended, bind_of_ok otherEnded]
        obtain unended | ⟨result, last, final, ended, otherEnded, reached, lastLevel⟩ :=
          abreastNext value middle between reached
        · exact .inl unended
        · exact .inr ⟨result, last, final, ended, otherEnded, reached, lastLevel.trans level⟩

/-- Going abreast is kept by sequencing. -/
theorem abreast_sequential (more : Nat) (start otherStart : State) :
    Sequential (Abreast more start otherStart) where
  pure _ := abreast_ofExcept rfl
  bind := Abreast.bind

/-- A form may be opened under the one limit exactly when it may be under the other. -/
theorem Abreast.nested {inner other : Action α}
    (abreast : Abreast more start otherStart inner other) (limit : Nat) :
    Abreast more start otherStart (nested limit inner) (nested (limit + more) other) := by
  intro there beside states
  by_cases room : there.depth < limit
  · have otherRoom : beside.depth < limit + more := by
      rw [states.depth]
      exact Nat.add_lt_add_right room more
    have entered : State.Abreast more start otherStart (there.withDepth (there.depth + 1))
        (beside.withDepth (beside.depth + 1)) :=
      states.withDepth (by rw [states.depth, Nat.add_right_comm])
    obtain ⟨unended, otherUnended⟩ |
      ⟨result, after, final, ended, otherEnded, reached, level⟩ := abreast _ _ entered
    · exact .inl ⟨nested_of_none room unended, nested_of_none otherRoom otherUnended⟩
    · have level : after.depth = there.depth + 1 := level
      refine .inr ⟨result, _, _, nested_of_lt room ended, nested_of_lt otherRoom otherEnded,
        reached.withDepth ?_, ?_⟩
      · rw [reached.depth, level]
        omega
      · show after.depth - 1 = there.depth
        rw [level, Nat.add_sub_cancel]
  · have full := Nat.not_lt.mp room
    have otherFull : limit + more ≤ beside.depth := by
      rw [states.depth]
      exact Nat.add_le_add_right full more
    exact .inr ⟨_, there, beside, nested_of_le inner full, nested_of_le other otherFull, states,
      rfl⟩

/-- What is announced on both sides differs only by the number of open forms. -/
theorem abreast_announce (operation : Operation) :
    Abreast more start otherStart (announce operation) (announce operation) := by
  intro there beside states
  refine .inr ⟨.ok (), _, _, rfl, ?_, states.report (.dispatch operation there.depth), rfl⟩
  rw [announce, states.depth]
  rfl

/-- Looking up a variable that had one value at both starts goes abreast. -/
theorem abreast_lookup {name : String}
    (agree : start.environment.get? name = otherStart.environment.get? name) :
    Abreast more start otherStart (lookup name) (lookup name) := by
  intro there beside states
  have same := states.get?_eq agree
  cases found : there.environment.get? name with
  | none =>
      rw [found] at same
      exact .inr ⟨.error (.undefinedVariable name), there, beside, by simp only [lookup, found],
        by simp only [lookup, same]; rfl, states, rfl⟩
  | some value =>
      rw [found] at same
      exact .inr ⟨.ok value, there, beside, by simp only [lookup, found],
        by simp only [lookup, same]; rfl, states, rfl⟩

/-- Setting a variable goes abreast, whether or not it had one value before. -/
theorem abreast_assign (name : String) (value : Value) :
    Abreast more start otherStart (assign name value) (assign name value) :=
  fun _ _ states => .inr ⟨.ok (), _, _, rfl, rfl, states.assigned name value, rfl⟩

/-- Sinks that are alike take or refuse the line alike. -/
theorem abreast_writeLine (value : Value) :
    Abreast more start otherStart (writeLine value) (writeLine value) := by
  intro there beside states
  have reached := states.wrote (value.text ++ "\n").toByteArray
  obtain ⟨same, _⟩ := states.sink.write (value.text ++ "\n").toByteArray
  rw [writeLine_eq, writeLine_eq]
  generalize there.sink.write _ = written at same reached ⊢
  generalize beside.sink.write _ = otherWritten at same reached ⊢
  obtain ⟨taken, sink⟩ := written
  obtain ⟨_, otherSink⟩ := otherWritten
  cases same
  cases taken with
  | ok => exact .inr ⟨.ok (), _, _, rfl, rfl, reached, rfl⟩
  | error refusal => exact .inr ⟨.error (.output refusal), _, _, rfl, rfl, reached, rfl⟩

end Action

namespace Machine

variable {more : Nat} {start otherStart : State} {program expr : Expr}

/-- What opened lists do goes abreast when the variables that they read agree. -/
theorem abreast_congruentAt (arithmetic : Arithmetic) (memory : Memory) (limit passes : Nat)
    (agree : ∀ name, program.Reads name →
      start.environment.get? name = otherStart.environment.get? name)
    (part : program.Contains expr) :
    CongruentAt ⟨arithmetic, memory, limit, passes⟩ ⟨arithmetic, memory, limit + more, passes⟩ expr
      (fun _ => True) (fun {_} _ first second => Action.Abreast more start otherStart first second)
    where
  toSequenced := (Action.abreast_sequential more start otherStart).sequenced
  sameMemory := rfl
  fail raises := Action.abreast_ofExcept (by cases raises <;> rfl)
  lookup := by
    rintro name rfl
    exact Action.abreast_lookup (agree name part)
  assign _ _ := Action.abreast_assign _ _
  writeLine _ _ := Action.abreast_writeLine _
  abs {_ value} _ _ := Action.abreast_ofExcept (by
    cases found : arithmetic.abs value with
    | ok => rfl
    | error =>
        obtain rfl | ⟨_, _, _, rfl⟩ := Arithmetic.error_of_abs found <;> rfl)
  add {_ _ first second} _ _ _ := Action.abreast_ofExcept (by
    cases found : arithmetic.add first second with
    | ok => rfl
    | error =>
        obtain rfl | ⟨_, _, _, _, _, rfl⟩ := Arithmetic.error_of_add found <;> rfl)
  loop _ tests bodies :=
    (Action.abreast_sequential more start otherStart).loop Action.abreast_diverging tests bodies
      passes

/-- Evaluations of one program from two states go abreast when these agree on the
variables that the program reads. -/
theorem abreast_evaluate (arithmetic : Arithmetic) (memory : Memory) (limit passes : Nat)
    (agree : ∀ name, program.Reads name →
      start.environment.get? name = otherStart.environment.get? name) :
    Action.Abreast more start otherStart
      ((⟨arithmetic, memory, limit, passes⟩ : Machine).evaluate program)
      ((⟨arithmetic, memory, limit + more, passes⟩ : Machine).evaluate program) :=
  @Sequenced.evaluate ⟨arithmetic, memory, limit, passes⟩
    ⟨arithmetic, memory, limit + more, passes⟩ _ _
    (Action.abreast_sequential more start otherStart).sequenced program
    (fun _ part => abreast_congruentAt arithmetic memory limit passes agree part)
    Action.abreast_announce (fun abreast => abreast.nested limit)

/-- When one evaluation ends, so does the one that goes abreast. -/
theorem Ends.abreast {arithmetic : Arithmetic} {memory : Memory} {limit : Nat}
    {ending : Ending Value}
    (ends : Ends arithmetic memory limit program start ending) (more : Nat) (otherStart : State)
    (agree : ∀ name, program.Reads name →
      start.environment.get? name = otherStart.environment.get? name)
    (depth : otherStart.depth = start.depth + more) (sink : start.sink.Alike otherStart.sink) :
    ∃ final, Ends arithmetic memory (limit + more) program otherStart
        ⟨ending.result.mapError (EvalError.deeper more), final⟩ ∧
      State.Abreast more start otherStart ending.state final := by
  obtain ⟨passes, ended⟩ := ends
  obtain ⟨unended, _⟩ | ⟨result, after, final, found, otherEnded, reached, _⟩ :=
    abreast_evaluate arithmetic memory limit passes agree _ _ (State.abreast_start depth sink)
  · rw [ended] at unended
    cases unended
  · rw [ended] at found
    cases found
    exact ⟨final, ⟨passes, otherEnded⟩, reached⟩

/-- Two evaluations of one program that start alike, except for variables that the
program does not read, both end or both do not. They end with the same result
and have printed and reported the same. Each variable is as it was at the start
on both sides, or it is the same on both. -/
theorem unread_variables_are_irrelevant (arithmetic : Arithmetic) (memory : Memory) (limit : Nat)
    (program : Expr) (state : State) (environment : Environment)
    (agree : ∀ name, program.Reads name →
      state.environment.get? name = environment.get? name) :
    ((∃ ending, Ends arithmetic memory limit program state ending) ↔
      ∃ ending, Ends arithmetic memory limit program
        { state with environment := environment } ending) ∧
    ∀ ending other, Ends arithmetic memory limit program state ending →
      Ends arithmetic memory limit program { state with environment := environment } other →
      other.result = ending.result ∧
        other.state.sink.written = ending.state.sink.written ∧
        other.state.events = ending.state.events ∧
        ∀ name,
          ending.state.environment.get? name = state.environment.get? name ∧
            other.state.environment.get? name = environment.get? name ∨
          other.state.environment.get? name = ending.state.environment.get? name := by
  let beside : State := { state with environment := environment }
  refine ⟨⟨fun ⟨ending, ends⟩ => ?_, fun ⟨ending, ends⟩ => ?_⟩,
    fun ending other ends otherEnds => ?_⟩
  · obtain ⟨final, otherEnds, _⟩ := ends.abreast 0 beside agree rfl ⟨rfl, fun _ => rfl⟩
    exact ⟨_, otherEnds⟩
  · obtain ⟨final, otherEnds, _⟩ := ends.abreast 0 state (fun name reads => (agree name reads).symm)
      rfl ⟨rfl, fun _ => rfl⟩
    exact ⟨_, otherEnds⟩
  · obtain ⟨final, ended, reached⟩ := ends.abreast 0 beside agree rfl ⟨rfl, fun _ => rfl⟩
    cases otherEnds.unique ended
    obtain ⟨reported, events, otherEvents⟩ := reached.events
    refine ⟨mapError_deeper_zero _, reached.written_eq rfl, ?_, reached.bindings⟩
    rw [events, otherEvents, Event.deeper_zero, Array.map_id]

/-- A program that reads one variable, sets another and names a third one as data. -/
theorem unread_variables_are_irrelevant_data :
    let program := Expr.form "if" [.str "z", .form "set" [.str "y", .form "get" [.str "x"]]]
    let state : State := ⟨.ofList [("x", .int 1), ("z", .int 0)], .unlimited, #[], 0⟩
    let environment := Environment.ofList [("x", .int 1), ("y", .str "old")]
    (∀ name, program.Reads name → state.environment.get? name = environment.get? name) ∧
    ∃ ending other, Ends .word64 (.below 16) 3 program state ending ∧
      Ends .word64 (.below 16) 3 program { state with environment := environment } other ∧
      other.result = .ok (.int 1) ∧ other.state.events = ending.state.events ∧
      ∀ name,
        ending.state.environment.get? name = state.environment.get? name ∧
          other.state.environment.get? name = environment.get? name ∨
        other.state.environment.get? name = ending.state.environment.get? name := by
  intro program state environment
  have agree : ∀ name, program.Reads name →
      state.environment.get? name = environment.get? name := by
    intro name reads
    obtain rfl : name = "x" := by
      simpa [program, Expr.Reads, Expr.form, Operation.name] using reads
    rfl
  obtain ⟨bothEnd, endAlike⟩ :=
    unread_variables_are_irrelevant .word64 (.below 16) 3 program state environment agree
  have ends : Ends .word64 (.below 16) 3 program state ⟨.ok (.int 1),
      ⟨state.environment.set "y" (.int 1), .unlimited,
        #[.dispatch .ifThen 1, .dispatch .set 2, .dispatch .get 3, .set "y" (.int 1)], 0⟩⟩ :=
    ⟨0, rfl⟩
  obtain ⟨other, otherEnds⟩ := bothEnd.mp ⟨_, ends⟩
  obtain ⟨result, _, events, bindings⟩ := endAlike _ other ends otherEnds
  exact ⟨agree, _, other, ends, otherEnds, result, events, bindings⟩

end Machine

end JsonForms
