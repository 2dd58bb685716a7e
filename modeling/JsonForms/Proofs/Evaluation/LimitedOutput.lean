import JsonForms.Proofs.Evaluation.History
import JsonForms.Proofs.Evaluation.Passes

/-!
# Evaluations that run out of room

An evaluation that prints to a limited sink follows the evaluation that prints
without a limit, up to the line whose bytes do not all fit. The limit is an
offset into the bytes of the unlimited evaluation: it may lie inside a line and
inside a character.
-/

namespace JsonForms

namespace Sink

/-- The sink that takes no more than `capacity` bytes, counting those already written. -/
def confined (sink : Sink) (capacity : Nat) (refusal : Refusal) : Sink :=
  ⟨sink.written, some (capacity - sink.written.size), refusal⟩

/-- Bytes within the capacity are taken as an unlimited sink takes them. -/
theorem write_confined_of_le {sink : Sink} {bytes : ByteArray} {capacity : Nat}
    (refusal : Refusal) (within : (sink.written ++ bytes).size ≤ capacity) :
    (sink.confined capacity refusal).write bytes =
      (.ok (), confined ⟨sink.written ++ bytes, none, sink.refusal⟩ capacity refusal) := by
  rw [ByteArray.size_append] at within
  have taken : bytes.size ≤ capacity - sink.written.size := by omega
  simp only [confined, write, if_pos taken, ByteArray.size_append, Nat.sub_sub]

/-- Bytes beyond the capacity are refused, and those up to it are kept. -/
theorem write_confined_of_lt {sink : Sink} {bytes : ByteArray} {capacity : Nat}
    (refusal : Refusal) (fits : sink.written.size ≤ capacity)
    (beyond : capacity < (sink.written ++ bytes).size) :
    (sink.confined capacity refusal).write bytes =
      (.error refusal, ⟨(sink.written ++ bytes).extract 0 capacity, some 0, refusal⟩) := by
  rw [ByteArray.size_append] at beyond
  have tooMany : ¬ bytes.size ≤ capacity - sink.written.size := by omega
  simp only [confined, write, if_neg tooMany, extract_append_of_size_le fits]

end Sink

/-- The state whose sink is confined to a capacity. -/
def State.confined (state : State) (capacity : Nat) (refusal : Sink.Refusal) : State :=
  { state with sink := state.sink.confined capacity refusal }

/-- What a capacity makes of an ending: the ending itself when everything fits.
Otherwise the sink keeps the first bytes, the evaluation fails there, and its
events are the first ones. -/
structure Ending.CutAt {α : Type} (capacity : Nat) (refusal : Sink.Refusal)
    (free ended : Ending α) : Prop where
  whole : free.state.sink.written.size ≤ capacity →
    ended = ⟨free.result, free.state.confined capacity refusal⟩
  refused : capacity < free.state.sink.written.size →
    ended.result = .error (.output refusal) ∧
      ended.state.sink.written = free.state.sink.written.extract 0 capacity ∧
      ∃ more, free.state.events = ended.state.events ++ more

namespace Ending

/-- A failure is cut to a failure, whatever value was expected. -/
theorem CutAt.failure {α : Type} (β : Type) {capacity : Nat} {refusal : Sink.Refusal}
    {error : EvalError} {state : State} {ended : Ending α}
    (cut : CutAt capacity refusal ⟨.error error, state⟩ ended) :
    ∃ failure final, ended = ⟨.error failure, final⟩ ∧
      CutAt capacity refusal (⟨.error error, state⟩ : Ending β) ⟨.error failure, final⟩ := by
  by_cases room : state.sink.written.size ≤ capacity
  · refine ⟨error, _, cut.whole room, fun _ => rfl, fun overflow => ?_⟩
    exact absurd room (Nat.not_le.mpr overflow)
  · obtain ⟨result, final⟩ := ended
    obtain ⟨rfl, kept⟩ := cut.refused (Nat.not_le.mp room)
    exact ⟨_, _, rfl, fun all => absurd all room, fun _ => ⟨rfl, kept⟩⟩

/-- What has been cut stays as it is when the free evaluation goes on. -/
theorem CutAt.later {α β : Type} {capacity : Nat} {refusal : Sink.Refusal} {value : α}
    {middle : State} {ended : Ending α} {free : Ending β}
    (cut : CutAt capacity refusal ⟨.ok value, middle⟩ ended)
    (overflow : capacity < middle.sink.written.size) (longer : middle.Extends free.state) :
    ∃ final, ended = ⟨.error (.output refusal), final⟩ ∧
      CutAt capacity refusal free ⟨.error (.output refusal), final⟩ := by
  obtain ⟨result, final⟩ := ended
  obtain ⟨rfl, kept, more, events⟩ := cut.refused overflow
  obtain ⟨⟨bytes, written⟩, ⟨reports, reported⟩⟩ := longer
  refine ⟨final, rfl, fun all => ?_, fun _ => ⟨rfl, ?_, more ++ reports, ?_⟩⟩
  · rw [written, ByteArray.size_append] at all
    omega
  · rw [written, Sink.extract_append_of_le_size (Nat.le_of_lt overflow)]
    exact kept
  · rw [reported, events, Array.append_assoc]

/-- The number of open forms plays no part in what is cut. -/
theorem CutAt.withDepth {α : Type} {capacity : Nat} {refusal : Sink.Refusal}
    {free ended : Ending α} (cut : CutAt capacity refusal free ended) (change : Nat → Nat) :
    CutAt capacity refusal
      ⟨free.result, { free.state with depth := change free.state.depth }⟩
      ⟨ended.result, { ended.state with depth := change ended.state.depth }⟩ where
  whole room := by
    cases cut.whole room
    rfl
  refused overflow := cut.refused overflow

end Ending

namespace Action

/-- The second action does to a limited sink what its capacity makes of what the
first one does to an unlimited sink. -/
structure Confined {α : Type} (free bounded : Action α) : Prop where
  grows : free.Grows
  unlimited : ∀ state ending, free state = some ending → state.sink.room = none →
    ending.state.sink.room = none
  cut : ∀ (capacity : Nat) (refusal : Sink.Refusal) state ending, free state = some ending →
    state.sink.room = none → state.sink.written.size ≤ capacity →
      ∃ ended, bounded (state.confined capacity refusal) = some ended ∧
        Ending.CutAt capacity refusal ending ended

/-- An action that neither uses nor changes the sink. -/
def Silent {α : Type} (action : Action α) : Prop :=
  ∀ state ending, action state = some ending → ending.state.sink = state.sink ∧
    ∀ sink, action { state with sink := sink } =
      some ⟨ending.result, { ending.state with sink := sink }⟩

/-- A silent action does the same to every sink. -/
theorem Silent.confined {α : Type} {action : Action α} (silent : action.Silent)
    (grows : action.Grows) : action.Confined action where
  unlimited state ending ended unlimited := by
    rw [(silent _ _ ended).1, unlimited]
  grows := grows
  cut capacity refusal state ending ended _ fits := by
    obtain ⟨kept, moved⟩ := silent _ _ ended
    refine ⟨_, moved _, fun _ => ?_, fun overflow => ?_⟩
    · simp only [State.confined, kept]
    · rw [kept] at overflow
      exact absurd fits (Nat.not_le.mpr overflow)

/-- A result is silent. -/
theorem silent_ofExcept {α : Type} (result : Except EvalError α) : (ofExcept result).Silent := by
  intro state ending ended
  cases ended
  exact ⟨rfl, fun _ => rfl⟩

/-- Announcing an operation is silent. -/
theorem silent_announce (operation : Operation) : (announce operation).Silent := by
  intro state ending ended
  cases ended
  exact ⟨rfl, fun _ => rfl⟩

/-- Looking up a variable is silent. -/
theorem silent_lookup (name : String) : (lookup name).Silent := by
  intro state ending ended
  unfold lookup at ended
  split at ended
  all_goals
    rename_i found
    cases ended
    exact ⟨rfl, fun sink => by simp only [lookup, found]⟩

/-- Setting a variable is silent. -/
theorem silent_assign (name : String) (value : Value) : (assign name value).Silent := by
  intro state ending ended
  cases ended
  exact ⟨rfl, fun _ => rfl⟩

/-- A line to an unlimited sink is added to what was written. -/
theorem ending_of_writeLine {value : Value} {state : State} {ending : Ending Unit}
    (ended : writeLine value state = some ending) (unlimited : state.sink.room = none) :
    ending = ⟨.ok (), { state with sink :=
      ⟨state.sink.written ++ (value.text ++ "\n").toByteArray, none, state.sink.refusal⟩ }⟩ := by
  obtain ⟨environment, ⟨written, room, refusal⟩, events, depth⟩ := state
  cases unlimited
  rw [writeLine_eq] at ended
  cases ended
  rfl

/-- A line that fits is kept; of another one the sink keeps what it has room for. -/
theorem confined_writeLine (value : Value) : (writeLine value).Confined (writeLine value) where
  grows := grows_writeLine value
  unlimited state ending ended unlimited := by
    rw [ending_of_writeLine ended unlimited]
  cut capacity refusal state ending ended unlimited fits := by
    rw [ending_of_writeLine ended unlimited, writeLine_eq]
    generalize (value.text ++ "\n").toByteArray = line
    by_cases within : (state.sink.written ++ line).size ≤ capacity
    · simp only [State.confined, Sink.write_confined_of_le refusal within]
      exact ⟨_, rfl, fun _ => rfl, fun beyond => absurd within (Nat.not_le.mpr beyond)⟩
    · have beyond := Nat.not_le.mp within
      simp only [State.confined, Sink.write_confined_of_lt refusal fits beyond]
      exact ⟨_, rfl, fun all => absurd all within, fun _ => ⟨rfl, rfl, #[], by simp⟩⟩

/-- An action that does not end is confined. -/
theorem confined_diverging {α : Type} :
    Confined (fun _ => none : Action α) (fun _ => none) where
  grows := grows_diverging
  unlimited _ _ ended := nomatch ended
  cut _ _ _ _ ended := nomatch ended

/-- A sequence is cut in its first action if the capacity does not suffice for that, and in its
second one otherwise. -/
theorem Confined.bind {α β : Type} {first second : Action α} {next after : α → Action β}
    (confined : first.Confined second)
    (confinedNext : ∀ value, (next value).Confined (after value)) :
    (first.bind next).Confined (second.bind after) where
  grows := confined.grows.bind fun value => (confinedNext value).grows
  unlimited state ending ended unlimited := by
    obtain ⟨error, middle, found, rfl⟩ | ⟨value, middle, found, ended⟩ := ending_of_bind ended
    · exact confined.unlimited _ _ found unlimited
    · have between := confined.unlimited _ _ found unlimited
      exact (confinedNext value).unlimited _ _ ended between
  cut capacity refusal state ending ended unlimited fits := by
    obtain ⟨error, middle, found, rfl⟩ | ⟨value, middle, found, ended⟩ := ending_of_bind ended
    all_goals
      obtain ⟨_, reached, cut⟩ := confined.cut capacity refusal _ _ found unlimited fits
    · obtain ⟨failure, final, rfl, cutAfter⟩ := cut.failure β
      exact ⟨_, bind_of_error reached after, cutAfter⟩
    · by_cases room : middle.sink.written.size ≤ capacity
      · rw [cut.whole room] at reached
        rw [bind_of_ok reached]
        have between := confined.unlimited _ _ found unlimited
        exact (confinedNext value).cut capacity refusal _ _ ended between room
      · have longer := (confinedNext value).grows _ _ ended
        obtain ⟨final, rfl, cutAfter⟩ := cut.later (Nat.not_le.mp room) longer
        exact ⟨_, bind_of_error reached after, cutAfter⟩

/-- Being confined is kept by sequencing. -/
theorem confined_sequential : Sequential Confined where
  pure value := (silent_ofExcept (.ok value)).confined (grows_pure value)
  bind := Confined.bind

/-- A confined action stays so inside a form, which is closed also where the output is cut. -/
theorem Confined.nested {α : Type} {inner other : Action α} (confined : inner.Confined other)
    (limit : Nat) : (nested limit inner).Confined (nested limit other) where
  grows := confined.grows.nested limit
  unlimited state ending ended unlimited := by
    obtain ⟨result, after, _, innerEnded, rfl⟩ | ⟨_, rfl⟩ := ending_of_nested ended
    · have kept := confined.unlimited _ _ innerEnded unlimited
      exact kept
    · exact unlimited
  cut capacity refusal state ending ended unlimited fits := by
    obtain ⟨result, after, room, innerEnded, rfl⟩ | ⟨full, rfl⟩ := ending_of_nested ended
    · obtain ⟨innerBounded, reached, cut⟩ :=
        confined.cut capacity refusal _ _ innerEnded unlimited fits
      have entered : (state.confined capacity refusal).depth < limit := room
      exact ⟨_, nested_of_lt entered reached, cut.withDepth (· - 1)⟩
    · refine ⟨_, nested_of_le other full, fun _ => rfl, fun overflow => ?_⟩
      exact absurd fits (Nat.not_le.mpr overflow)

end Action

namespace Machine

/-- What opened lists do is confined. -/
theorem confined_congruence (machine : Machine) :
    Congruence machine machine Action.Confined where
  toSequential := Action.confined_sequential
  sameMemory := rfl
  fail error := (Action.silent_ofExcept (.error error)).confined (Action.grows_fail error)
  nested confined := confined.nested machine.limit
  announce operation :=
    (Action.silent_announce operation).confined (Action.grows_announce operation)
  lookup name := (Action.silent_lookup name).confined (Action.grows_lookup name)
  assign name value := (Action.silent_assign name value).confined (Action.grows_assign name value)
  writeLine := Action.confined_writeLine
  abs _ := (Action.silent_ofExcept _).confined (Action.grows_ofExcept _)
  add _ _ := (Action.silent_ofExcept _).confined (Action.grows_ofExcept _)
  loop tests bodies :=
    Action.confined_sequential.loop Action.confined_diverging tests bodies machine.passes

/-- A sink that takes everything goes on to take everything. -/
theorem Ends.unlimited {arithmetic : Arithmetic} {memory : Memory} {limit : Nat} {program : Expr}
    {state : State} {ending : Ending Value}
    (ends : Ends arithmetic memory limit program state ending)
    (unlimited : state.sink.room = none) : ending.state.sink.room = none := by
  obtain ⟨passes, ended⟩ := ends
  have confined := (confined_congruence ⟨arithmetic, memory, limit, passes⟩).evaluate program
  exact confined.unlimited _ _ ended unlimited

/-- An evaluation whose sink takes so many bytes ends when it does without a
limit. It ends alike when all bytes fit; otherwise it fails with the refusal of
the sink, has printed exactly the first bytes and reported the first events. -/
theorem ends_of_limited_sink {arithmetic : Arithmetic} {memory : Memory} {limit : Nat}
    {program : Expr} {environment : Environment} {events : Array Event} {depth : Nat}
    {free : Ending Value}
    (ends : Ends arithmetic memory limit program ⟨environment, .unlimited, events, depth⟩ free)
    (room : Nat) (refusal : Sink.Refusal) :
    ∃ ended,
      Ends arithmetic memory limit program
        ⟨environment, .limited room refusal, events, depth⟩ ended ∧
      (free.state.sink.written.size ≤ room →
        ended.result = free.result ∧ ended.state.environment = free.state.environment ∧
          ended.state.events = free.state.events ∧
          ended.state.sink.written = free.state.sink.written) ∧
      (room < free.state.sink.written.size →
        ended.result = .error (.output refusal) ∧
          ended.state.sink.written = free.state.sink.written.extract 0 room ∧
          ∃ more, free.state.events = ended.state.events ++ more) := by
  obtain ⟨passes, evaluated⟩ := ends
  have confined := (confined_congruence ⟨arithmetic, memory, limit, passes⟩).evaluate program
  obtain ⟨ended, reached, cut⟩ :=
    confined.cut room refusal _ _ evaluated rfl (Nat.zero_le room)
  refine ⟨ended, ⟨passes, reached⟩, fun fits => ?_, cut.refused⟩
  cases cut.whole fits
  exact ⟨rfl, rfl, rfl, rfl⟩

/-- A line of two bytes is cut after its first byte by a sink that takes one. -/
theorem ends_of_limited_sink_one :
    let program := Expr.form "print" [.str "a"]
    ∃ free ended, Ends .word64 (.below 16) 1 program ⟨∅, .unlimited, #[], 0⟩ free ∧
      Ends .word64 (.below 16) 1 program ⟨∅, .limited 1 .full, #[], 0⟩ ended ∧
      ended.result = .error (.output .full) ∧
      ended.state.sink.written = free.state.sink.written.extract 0 1 := by
  intro program
  have ends : Ends .word64 (.below 16) 1 program ⟨∅, .unlimited, #[], 0⟩
      ⟨.ok .nothing, ⟨∅, ⟨"a\n".toByteArray, none, .full⟩, #[.dispatch .print 1], 0⟩⟩ :=
    ⟨0, rfl⟩
  obtain ⟨ended, endsBounded, _, refused⟩ := ends_of_limited_sink ends 1 .full
  obtain ⟨failed, kept, _⟩ := refused (by decide)
  exact ⟨_, ended, ends, endsBounded, failed, kept⟩

end Machine

end JsonForms
