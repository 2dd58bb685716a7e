import JsonForms.Proofs.Evaluation.Assignments
import JsonForms.Proofs.Evaluation.LimitedOutput

/-!
# The frame of an evaluation

What an evaluation can change is written in its program: it binds no variable but
those that a form sets, and writes nothing unless a form prints. It takes no
binding away and no byte back, however it ends. What it writes are whole lines
as long as the sink takes them, and these do not depend on the sink.
-/

namespace JsonForms

/-- Whether an evaluation ended since the sink refused a write. -/
def Ending.IsRefused {α : Type} (ending : Ending α) : Prop :=
  ∃ refusal, ending.result = .error (.output refusal)

/-- Bytes that are lines, each with its newline. -/
def WholeLines (bytes : ByteArray) : Prop :=
  bytes = .empty ∨ ∃ front : ByteArray, bytes = front ++ "\n".toByteArray

/-- Whole lines behind whole lines are whole lines. -/
theorem WholeLines.append {front back : ByteArray} (first : WholeLines front)
    (second : WholeLines back) : WholeLines (front ++ back) := by
  obtain rfl | ⟨line, rfl⟩ := second
  · rwa [ByteArray.append_empty]
  · exact .inr ⟨front ++ line, ByteArray.append_assoc.symm⟩

/-! ## Variables -/

/-- The action leaves a variable as it is. -/
def Action.Leaves (name : String) {α : Type} (action : Action α) : Prop :=
  ∀ state ending, action state = some ending →
    ending.state.environment.get? name = state.environment.get? name

namespace Action

variable {name : String} {α β : Type}

/-- A result leaves all variables. -/
theorem leaves_ofExcept (result : Except EvalError α) : Leaves name (ofExcept result) := by
  intro state ending ended
  cases ended
  rfl

/-- Two actions that leave a variable leave it one after the other. -/
theorem Leaves.bind {first : Action α} {next : α → Action β} (leaves : Leaves name first)
    (leavesNext : ∀ value, Leaves name (next value)) : Leaves name (first.bind next) := by
  intro state ending ended
  obtain ⟨error, middle, found, rfl⟩ | ⟨value, middle, found, ended⟩ := ending_of_bind ended
  · exact leaves _ _ found
  · exact (leavesNext value _ _ ended).trans (leaves _ _ found)

/-- Leaving a variable is kept by sequencing. -/
theorem leaves_sequential (name : String) :
    Sequential fun {_} (first _ : Action _) => Leaves name first where
  pure _ := leaves_ofExcept (.ok _)
  bind := Leaves.bind

/-- Opening and closing a form leaves a variable. -/
theorem Leaves.nested {inner : Action α} (leaves : Leaves name inner) (limit : Nat) :
    Leaves name (nested limit inner) := by
  intro state ending ended
  obtain ⟨_, _, _, innerEnded, rfl⟩ | ⟨_, rfl⟩ := ending_of_nested ended
  · have kept := leaves _ _ innerEnded
    exact kept
  · rfl

end Action

/-! ## Output -/

namespace Action

variable {α β : Type}

/-- Two silent actions are silent one after the other. -/
theorem Silent.bind {first : Action α} {next : α → Action β} (silent : first.Silent)
    (silentNext : ∀ value, (next value).Silent) : (first.bind next).Silent := by
  intro state ending ended
  obtain ⟨error, middle, found, rfl⟩ | ⟨value, middle, found, ended⟩ := ending_of_bind ended
  · obtain ⟨kept, moved⟩ := silent _ _ found
    exact ⟨kept, fun sink => bind_of_error (moved sink) next⟩
  · obtain ⟨kept, moved⟩ := silent _ _ found
    obtain ⟨keptNext, movedNext⟩ := silentNext value _ _ ended
    exact ⟨keptNext.trans kept, fun sink => (bind_of_ok (moved sink) next).trans (movedNext sink)⟩

/-- Silence is kept by sequencing. -/
theorem silent_sequential : Sequential fun {_} (first _ : Action _) => Silent first where
  pure _ := silent_ofExcept (.ok _)
  bind := Silent.bind

/-- Opening and closing a form is silent. -/
theorem Silent.nested {inner : Action α} (silent : inner.Silent) (limit : Nat) :
    (nested limit inner).Silent := by
  intro state ending ended
  obtain ⟨result, after, room, innerEnded, rfl⟩ | ⟨full, rfl⟩ := ending_of_nested ended
  · obtain ⟨kept, moved⟩ := silent _ _ innerEnded
    refine ⟨kept, fun sink => ?_⟩
    exact @nested_of_lt _ limit inner { state with sink := sink } _ _ room (moved sink)
  · exact ⟨rfl, fun sink => nested_of_le inner full⟩

/-- The action adds bytes to the sink. Unless the sink refuses them they are whole
lines, and every sink that has room for them gets them from the same ending. -/
def Appends (action : Action α) : Prop :=
  ∀ state ending, action state = some ending →
    ∃ more : ByteArray, ending.state.sink.written = state.sink.written ++ more ∧
      (¬ ending.IsRefused → WholeLines more ∧
        ∀ sink : Sink, sink.fits more.size →
          action { state with sink := sink } =
            some ⟨ending.result, { ending.state with sink := (sink.write more).2 }⟩)

/-- A silent action adds no bytes. -/
theorem Silent.appends {action : Action α} (silent : action.Silent) : action.Appends := by
  intro state ending ended
  obtain ⟨kept, moved⟩ := silent _ _ ended
  refine ⟨.empty, by rw [kept, ByteArray.append_empty], fun _ => ⟨.inl rfl, fun sink _ => ?_⟩⟩
  rw [Sink.write_empty]
  exact moved sink

/-- Printing a value adds its line, which every sink with room for it takes. -/
theorem appends_writeLine (value : Value) : (writeLine value).Appends := by
  intro state ending ended
  rw [writeLine_eq] at ended
  rcases found : state.sink.write (value.text ++ "\n").toByteArray with ⟨_ | _, after⟩ <;>
    rw [found] at ended <;> cases ended
  next refusal =>
    obtain ⟨more, kept⟩ := state.sink.write_extends (value.text ++ "\n").toByteArray
    rw [found] at kept
    exact ⟨more, kept, fun taken => absurd ⟨refusal, rfl⟩ taken⟩
  next =>
    refine ⟨(value.text ++ "\n").toByteArray, ?_, fun _ => ⟨.inr ⟨value.text.toByteArray, ?_⟩, ?_⟩⟩
    · have written := (Sink.write_of_fits (Sink.fits_of_write found)).2
      rwa [found] at written
    · exact String.toByteArray_append
    · intro sink enough
      have taken := (Sink.write_of_fits enough).1
      rw [writeLine_eq]
      rcases written : sink.write (value.text ++ "\n").toByteArray with ⟨_ | _, final⟩
      · rw [written] at taken
        cases taken
      · rfl

/-- The bytes of two actions are those of the first one and then those of the second one. -/
theorem Appends.bind {first : Action α} {next : α → Action β} (appends : first.Appends)
    (appendsNext : ∀ value, (next value).Appends) : (first.bind next).Appends := by
  intro state ending ended
  obtain ⟨error, middle, found, rfl⟩ | ⟨value, middle, found, ended⟩ := ending_of_bind ended
  · obtain ⟨more, written, whole⟩ := appends _ _ found
    refine ⟨more, written, fun taken => ?_⟩
    obtain ⟨lines, moved⟩ := whole fun ⟨refusal, refused⟩ => taken ⟨refusal, by cases refused; rfl⟩
    exact ⟨lines, fun sink enough => bind_of_error (moved sink enough) next⟩
  · obtain ⟨front, written, whole⟩ := appends _ _ found
    obtain ⟨back, writtenNext, wholeNext⟩ := appendsNext value _ _ ended
    refine ⟨front ++ back, ?_, fun taken => ?_⟩
    · rw [writtenNext, written, ByteArray.append_assoc]
    · obtain ⟨lines, moved⟩ := whole (by rintro ⟨_, ⟨⟩⟩)
      obtain ⟨linesNext, movedNext⟩ := wholeNext taken
      refine ⟨lines.append linesNext, fun sink enough => ?_⟩
      obtain ⟨frontFits, backFits, same⟩ := Sink.fits_append enough
      rw [bind_of_ok (moved sink frontFits), ← same]
      exact movedNext _ backFits

/-- Adding whole lines is kept by sequencing. -/
theorem appends_sequential : Sequential fun {_} (first _ : Action _) => Appends first where
  pure _ := (silent_ofExcept (.ok _)).appends
  bind := Appends.bind

/-- Opening and closing a form adds the bytes of the inner action. -/
theorem Appends.nested {inner : Action α} (appends : inner.Appends) (limit : Nat) :
    (nested limit inner).Appends := by
  intro state ending ended
  obtain ⟨result, after, room, innerEnded, rfl⟩ | ⟨full, rfl⟩ := ending_of_nested ended
  · obtain ⟨more, written, whole⟩ := appends _ _ innerEnded
    refine ⟨more, written, fun taken => ?_⟩
    obtain ⟨lines, moved⟩ := whole taken
    refine ⟨lines, fun sink enough => ?_⟩
    exact @nested_of_lt _ limit inner { state with sink := sink } _ _ room (moved sink enough)
  · refine ⟨.empty, ByteArray.append_empty.symm, fun _ => ⟨.inl rfl, fun sink _ => ?_⟩⟩
    rw [Sink.write_empty]
    exact nested_of_le inner full

end Action

namespace Machine

variable {program expr : Expr}

/-- Lists of a program that does not set a variable leave it as it is. -/
theorem leaves_congruentAt (machine : Machine) {name : String} (unset : ¬ program.Sets name)
    (part : program.Contains expr) :
    CongruentAt machine machine expr (fun _ => True)
      (fun {_} _ first _ => Action.Leaves name first) where
  toSequenced := (Action.leaves_sequential name).sequenced
  sameMemory := rfl
  fail _ := Action.leaves_ofExcept _
  lookup := by
    rintro other - state ending ended
    unfold Action.lookup at ended
    split at ended <;> cases ended <;> rfl
  assign := by
    rintro other operand value rfl - state ending ended
    cases ended
    rw [Environment.get?_set, if_neg]
    rintro rfl
    exact unset ⟨operand, part⟩
  writeLine := by
    rintro _ value - - state ending ended
    rw [Action.writeLine_eq] at ended
    split at ended <;> cases ended <;> rfl
  abs _ _ := Action.leaves_ofExcept _
  add _ _ _ := Action.leaves_ofExcept _
  loop _ tests bodies :=
    (Action.leaves_sequential name).always_loop (fun _ _ ended => nomatch ended) tests bodies _

/-- Evaluations leave the variables as they are that their programs do not set. -/
theorem leaves_evaluate (machine : Machine) {name : String} (unset : ¬ program.Sets name) :
    Action.Leaves name (machine.evaluate program) :=
  @Sequenced.evaluate machine machine _ _ (Action.leaves_sequential name).sequenced program
    (fun _ part => machine.leaves_congruentAt unset part)
    (fun _ _ _ ended => by cases ended; rfl) (fun leaves => leaves.nested machine.limit)

/-- However an evaluation ends, a variable that its program does not set is as it was. -/
theorem Ends.get?_eq {arithmetic : Arithmetic} {memory : Memory} {limit : Nat} {state : State}
    {ending : Ending Value} (ends : Ends arithmetic memory limit program state ending)
    {name : String} (unset : ¬ program.Sets name) :
    ending.state.environment.get? name = state.environment.get? name := by
  obtain ⟨passes, ended⟩ := ends
  exact leaves_evaluate ⟨arithmetic, memory, limit, passes⟩ unset _ _ ended

/-- Lists of a program that does not print are silent. -/
theorem silent_congruentAt (machine : Machine) (noPrint : ¬ program.Prints)
    (part : program.Contains expr) :
    CongruentAt machine machine expr (fun _ => True)
      (fun {_} _ first _ => Action.Silent first) where
  toSequenced := Action.silent_sequential.sequenced
  sameMemory := rfl
  fail _ := Action.silent_ofExcept _
  lookup _ := Action.silent_lookup _
  assign _ _ := Action.silent_assign _ _
  writeLine := by
    rintro operands _ rfl -
    exact absurd ⟨operands, part⟩ noPrint
  abs _ _ := Action.silent_ofExcept _
  add _ _ _ := Action.silent_ofExcept _
  loop _ tests bodies :=
    Action.silent_sequential.always_loop (fun _ _ ended => nomatch ended) tests bodies _

/-- Evaluations of programs that do not print are silent. -/
theorem silent_evaluate (machine : Machine) (noPrint : ¬ program.Prints) :
    (machine.evaluate program).Silent :=
  @Sequenced.evaluate machine machine _ _ Action.silent_sequential.sequenced program
    (fun _ part => machine.silent_congruentAt noPrint part)
    Action.silent_announce (fun silent => silent.nested machine.limit)

/-- What opened lists do only adds bytes. -/
theorem appends_congruence (machine : Machine) :
    Congruence machine machine fun {_} first _ => Action.Appends first where
  toSequential := Action.appends_sequential
  sameMemory := rfl
  fail error := (Action.silent_ofExcept (.error error)).appends
  nested appends := appends.nested machine.limit
  announce operation := (Action.silent_announce operation).appends
  lookup name := (Action.silent_lookup name).appends
  assign name value := (Action.silent_assign name value).appends
  writeLine := Action.appends_writeLine
  abs _ := (Action.silent_ofExcept _).appends
  add _ _ := (Action.silent_ofExcept _).appends
  loop tests bodies :=
    Action.appends_sequential.always_loop (fun _ _ ended => nomatch ended) tests bodies _

/-- What is bound at the start stays bound, wherever an evaluation comes to and
however it ends. A variable whose value has changed is one that a form of the
program sets. The bytes written before stay first; none are added unless a form
prints, and unless the sink refuses them those that are added are whole lines,
and they are the same for every sink that has room for them. -/
theorem changes_are_framed (arithmetic : Arithmetic) (memory : Memory) (limit : Nat)
    (program : Expr) (state : State) :
    (∀ part there, Visits arithmetic memory limit program state part there →
      ∀ name, (state.environment.get? name).isSome → (there.environment.get? name).isSome) ∧
    ∀ ending, Ends arithmetic memory limit program state ending →
      (∀ name, (state.environment.get? name).isSome →
        (ending.state.environment.get? name).isSome) ∧
      (∀ name, ending.state.environment.get? name ≠ state.environment.get? name →
        program.Sets name) ∧
      ∃ more : ByteArray, ending.state.sink.written = state.sink.written ++ more ∧
        (¬ program.Prints → more = .empty) ∧
        (¬ ending.IsRefused →
          (more = .empty ∨ ∃ front : ByteArray, more = front ++ "\n".toByteArray) ∧
          ∀ sink : Sink, sink.fits more.size →
            ∃ after : Sink, after.written = sink.written ++ more ∧
              Ends arithmetic memory limit program { state with sink := sink }
                ⟨ending.result, { ending.state with sink := after }⟩) := by
  refine ⟨fun part there visits name bound => ?_, fun ending ends => ⟨fun name bound => ?_,
    fun name changed => ?_, ?_⟩⟩
  · obtain ⟨_, _, ⟨rfl, rfl⟩, _, accounts⟩ := Reaches.accounts visits
    exact accounts.isSome_get? bound
  · obtain ⟨_, accounts⟩ := ends.accounts
    exact accounts.isSome_get? bound
  · by_contra unset
    exact changed (ends.get?_eq unset)
  · obtain ⟨passes, ended⟩ := ends
    have appends := (appends_congruence ⟨arithmetic, memory, limit, passes⟩).evaluate program
    obtain ⟨more, written, whole⟩ := appends _ _ ended
    refine ⟨more, written, fun noPrint => ?_, fun taken => ?_⟩
    · rw [(silent_evaluate ⟨arithmetic, memory, limit, passes⟩ noPrint _ _ ended).1] at written
      have sizes := congrArg ByteArray.size written
      rw [ByteArray.size_append] at sizes
      exact ByteArray.size_eq_zero_iff.mp (by omega)
    · obtain ⟨lines, moved⟩ := whole taken
      refine ⟨lines, fun sink enough => ?_⟩
      exact ⟨_, (Sink.write_of_fits enough).2, passes, moved sink enough⟩

/-- Two lines to a sink that has just room for them, and one variable of two that is set. -/
theorem changes_are_framed_lines :
    let program := Expr.form "print" [.str "a", .form "set" [.str "x", .str "b"]]
    let state : State :=
      ⟨.ofList [("x", .int 0), ("y", .int 1)], ⟨"old\n".toByteArray, some 4, .full⟩, #[], 0⟩
    Visits .word64 (.below 16) 2 program state program state ∧
    ∃ ending, Ends .word64 (.below 16) 2 program state ending ∧ ¬ ending.IsRefused ∧
      (state.environment.get? "y").isSome ∧ (ending.state.environment.get? "y").isSome ∧
      ending.state.environment.get? "x" ≠ state.environment.get? "x" ∧ program.Sets "x" ∧
      ∃ more : ByteArray, ending.state.sink.written = state.sink.written ++ more ∧
        ∃ after : Sink, after.written = ByteArray.empty ++ more ∧
          Ends .word64 (.below 16) 2 program { state with sink := .unlimited }
            ⟨.ok .nothing, { ending.state with sink := after }⟩ := by
  intro program state
  have visits : Visits .word64 (.below 16) 2 program state program state := reaches_start ⟨rfl, rfl⟩
  have ends : Ends .word64 (.below 16) 2 program state
      ⟨.ok .nothing, ⟨state.environment.set "x" (.str "b"),
      ⟨"old\na\nb\n".toByteArray, some 0, .full⟩,
      #[.dispatch .print 1, .dispatch .set 2, .set "x" (.str "b")], 0⟩⟩ := ⟨0, rfl⟩
  obtain ⟨staysBound, framed⟩ := changes_are_framed .word64 (.below 16) 2 program state
  obtain ⟨bound, changes, more, written, _, whole⟩ := framed _ ends
  obtain ⟨after, same, endsToo⟩ := (whole (by rintro ⟨_, ⟨⟩⟩)).2 .unlimited nofun
  have boundAtStart := staysBound _ _ visits "y" rfl
  have differs : (state.environment.set "x" (.str "b")).get? "x" ≠ state.environment.get? "x" := by
    decide
  exact ⟨visits, _, ends, by rintro ⟨_, ⟨⟩⟩, boundAtStart, bound "y" rfl, differs,
    changes "x" differs, more, written, after, same, endsToo⟩

end Machine

end JsonForms
