import JsonForms.Eval.Action

/-!
# What an evaluation has printed and reported

Bytes and events are only ever added. So the bytes and events before an action
are the beginning of those after it, however the action ends.
-/

namespace JsonForms

/-- A state that has everything an earlier one has printed and reported, in the
same order and first. -/
structure State.Extends (before after : State) : Prop where
  written : ∃ more, after.sink.written = before.sink.written ++ more
  events : ∃ more, after.events = before.events ++ more

namespace State

/-- A state has everything it has printed and reported. -/
theorem Extends.refl (state : State) : state.Extends state where
  written := ⟨.empty, by simp⟩
  events := ⟨#[], by simp⟩

/-- What a state on the way has is what the later state has first. -/
theorem Extends.trans {before middle after : State} (first : before.Extends middle)
    (second : middle.Extends after) : before.Extends after := by
  obtain ⟨⟨bytes, written⟩, ⟨reports, events⟩⟩ := first
  obtain ⟨⟨moreBytes, moreWritten⟩, ⟨moreReports, moreEvents⟩⟩ := second
  constructor
  · exact ⟨bytes ++ moreBytes, by rw [moreWritten, written, ByteArray.append_assoc]⟩
  · exact ⟨reports ++ moreReports, by rw [moreEvents, events, Array.append_assoc]⟩

/-- Only the bytes and the events of the states matter. -/
theorem Extends.congr {before after start final : State} (longer : before.Extends after)
    (sink : start.sink = before.sink) (events : start.events = before.events)
    (finalSink : final.sink = after.sink) (finalEvents : final.events = after.events) :
    start.Extends final where
  written := by
    rw [sink, finalSink]
    exact longer.written
  events := by
    rw [events, finalEvents]
    exact longer.events

end State

/-- A write keeps what was written before, taken or not. -/
theorem Sink.write_extends (sink : Sink) (bytes : ByteArray) :
    ∃ more, (sink.write bytes).2.written = sink.written ++ more := by
  rcases sink with ⟨written, _ | room, refusal⟩
  · exact ⟨bytes, rfl⟩
  · simp only [write]
    split
    · exact ⟨bytes, rfl⟩
    · exact ⟨bytes.extract 0 room, rfl⟩

namespace Action

/-- Every ending of the action has what was printed and reported before it. -/
def Grows {α : Type} (action : Action α) : Prop :=
  ∀ state ending, action state = some ending → state.Extends ending.state

/-- A result takes nothing back. -/
theorem grows_ofExcept {α : Type} (result : Except EvalError α) : (ofExcept result).Grows := by
  intro state ending ended
  cases ended
  exact .refl state

/-- An action that only has a value takes nothing back. -/
theorem grows_pure {α : Type} (value : α) : (Action.pure value).Grows :=
  grows_ofExcept (.ok value)

/-- A failure takes nothing back. -/
theorem grows_fail {α : Type} (error : EvalError) : (fail error : Action α).Grows :=
  grows_ofExcept (.error error)

/-- An action that does not end takes nothing back. -/
theorem grows_diverging {α : Type} : Grows (fun _ => none : Action α) := by
  intro state ending ended
  cases ended

/-- Two actions that take nothing back take nothing back one after the other. -/
theorem Grows.bind {α β : Type} {first : Action α} {next : α → Action β} (grows : first.Grows)
    (growsNext : ∀ value, (next value).Grows) : (first.bind next).Grows := by
  intro state ending ended
  obtain ⟨error, middle, found, rfl⟩ | ⟨value, middle, found, ended⟩ := ending_of_bind ended
  · exact grows _ _ found
  · exact (grows _ _ found).trans (growsNext value _ _ ended)

/-- Opening and closing a form takes nothing back. -/
theorem Grows.nested {α : Type} {inner : Action α} (grows : inner.Grows) (limit : Nat) :
    (nested limit inner).Grows := by
  intro state ending ended
  obtain ⟨result, after, _, innerEnded, rfl⟩ | ⟨_, rfl⟩ := ending_of_nested ended
  · exact (grows _ _ innerEnded).congr rfl rfl rfl rfl
  · exact .refl state

/-- Announcing an operation adds its event. -/
theorem grows_announce (operation : Operation) : (announce operation).Grows := by
  intro state ending ended
  cases ended
  exact ⟨⟨.empty, by simp⟩, ⟨#[.dispatch operation state.depth], by simp⟩⟩

/-- Looking up a variable takes nothing back. -/
theorem grows_lookup (name : String) : (lookup name).Grows := by
  intro state ending ended
  unfold lookup at ended
  split at ended <;> cases ended <;> exact .refl state

/-- Setting a variable adds its event. -/
theorem grows_assign (name : String) (value : Value) : (assign name value).Grows := by
  intro state ending ended
  cases ended
  exact ⟨⟨.empty, by simp⟩, ⟨#[.set name value], by simp⟩⟩

/-- Printing a value adds bytes, also when the sink refuses some of them. -/
theorem grows_writeLine (value : Value) : (writeLine value).Grows := by
  intro state ending ended
  obtain ⟨more, kept⟩ := state.sink.write_extends (value.text ++ "\n").toByteArray
  rw [writeLine_eq] at ended
  split at ended <;> cases ended
  all_goals
    rename_i written
    rw [written] at kept
    exact ⟨⟨more, kept⟩, ⟨#[], by simp⟩⟩

end Action

end JsonForms
