import JsonForms.Proofs.Evaluation.Depth
import JsonForms.Proofs.Evaluation.Settling

/-!
# Equivalent parts of programs

Two expressions are equivalent when nobody who evaluates them and looks at what comes
out can tell them apart. A program may have one of them in the place of the other, as
long as that place is one that is evaluated: an operation sees of such an operand only
the action that evaluates it.

The two expressions may need different numbers of passes and report different events.
So equivalence is carried through a program as settling, in both directions.
-/

namespace JsonForms

/-! ## Operands that are evaluated -/

namespace Operand

/-- Operands that are evaluated alike one by one, however they are written. -/
abbrev SameRuns : List Operand → List Operand → Prop :=
  List.Forall₂ fun operand other => operand.run = other.run

variable {operands others : List Operand}

/-- The value of the last operand depends only on how operands are evaluated. -/
theorem runLast_congr {first other : Operand} (run : first.run = other.run)
    (runs : SameRuns operands others) :
    runLast first operands = runLast other others := by
  induction runs generalizing first other with
  | nil => exact run
  | cons next _ inductionHypothesis => rw [runLast, runLast, run, inductionHypothesis next]

/-- Evaluating operands in order depends only on how they are evaluated. -/
theorem runEach_congr (runs : SameRuns operands others) :
    runEach operands = runEach others := by
  induction runs with
  | nil => rfl
  | cons first _ inductionHypothesis => rw [runEach, runEach, first, inductionHypothesis]

/-- Printing operands in order depends only on how they are evaluated. -/
theorem printEach_congr (runs : SameRuns operands others) :
    printEach operands = printEach others := by
  induction runs with
  | nil => rfl
  | cons first _ inductionHypothesis => rw [printEach, printEach, first, inductionHypothesis]

end Operand

/-- The operations whose first operand is taken as it is written. -/
def Operation.literals : List Operation := [.get, .set, .repeatTimes, .array]

/-- How an operand is written makes no difference to an operation, unless it is the
first one of an operation that takes it literally. -/
theorem Operation.apply_congr (machine : Machine) (operation : Operation)
    {operands others : List Operand}
    (runs : Operand.SameRuns operands others)
    (literal : operation ∈ literals → operands.head? = others.head?) :
    operation.apply machine operands = operation.apply machine others := by
  cases operation with
  | abs =>
      rcases runs with _ | ⟨first, _ | _⟩
      case cons.nil => simp only [apply, first]
      all_goals rfl
  | add | equal =>
      rcases runs with _ | ⟨first, _ | ⟨second, _ | _⟩⟩
      case cons.cons.nil => simp only [apply, first, second]
      all_goals rfl
  | leq | geq =>
      rcases runs with _ | ⟨first, _ | ⟨second, _ | _⟩⟩
      case cons.cons.nil => simp only [apply, ordered, first, second]
      all_goals rfl
  | get | array =>
      have same := literal (by decide)
      rcases runs with _ | ⟨first, _ | _⟩
      case cons.nil =>
        cases same
        rfl
      all_goals rfl
  | set | repeatTimes =>
      have same := literal (by decide)
      rcases runs with _ | ⟨first, _ | ⟨second, _ | _⟩⟩
      case cons.cons.nil =>
        cases same
        simp only [apply, second]
      all_goals rfl
  | seq =>
      rcases runs with _ | ⟨first, following⟩
      · rfl
      · exact congrArg some (Operand.runLast_congr first following)
  | ifThen =>
      rcases runs with _ | ⟨test, _ | ⟨body, _ | ⟨otherwise, _ | _⟩⟩⟩
      case cons.cons.nil => simp only [apply, test, body]
      case cons.cons.cons.nil => simp only [apply, test, body, otherwise]
      all_goals rfl
  | whileTrue =>
      rcases runs with _ | ⟨test, _ | ⟨first, following⟩⟩
      case cons.cons => simp only [apply, test, Operand.runEach_congr (.cons first following)]
      all_goals rfl
  | print => simp only [apply, Operand.printEach_congr runs]

namespace Machine

/-- How an operand is written makes no difference to an opened list, unless it is the
first one of an operation that takes it literally. -/
theorem perform_congr (machine : Machine) (head : Operand) {operands others : List Operand}
    (runs : Operand.SameRuns operands others)
    (literal : (∃ operation ∈ Operation.literals, head.expr = .str operation.name) →
      operands.head? = others.head?) :
    machine.perform (head :: operands) = machine.perform (head :: others) := by
  obtain ⟨written, run⟩ := head
  cases written with
  | str name =>
      rcases found : Operation.ofName? name with _ | operation
      · simp only [perform, found]
      obtain rfl := Operation.name_of_ofName? found
      have same := operation.apply_congr machine runs fun member =>
        literal ⟨operation, member, rfl⟩
      simp only [perform, found, same, runs.length_eq]
  | int | bool | list => rfl

end Machine

/-! ## Sinks -/

namespace Sink

/-- How many bytes a sink takes in all, if that is limited. -/
def capacity? (sink : Sink) : Option Nat :=
  sink.room.map (· + sink.written.size)

/-- A write changes neither the capacity of a sink nor how it refuses. -/
theorem capacity?_write (sink : Sink) (bytes : ByteArray) :
    (sink.write bytes).2.capacity? = sink.capacity? ∧
      (sink.write bytes).2.refusal = sink.refusal := by
  rcases sink with ⟨written, _ | room, refusal⟩
  · exact ⟨rfl, rfl⟩
  · by_cases fits : bytes.size ≤ room
    · simp only [write, if_pos fits, capacity?, Option.map_some, ByteArray.size_append, and_true]
      congr 1
      omega
    · simp only [write, if_neg fits, capacity?, Option.map_some, ByteArray.size_append,
        ByteArray.size_extract, and_true]
      congr 1
      omega

/-- A sink of some capacity is known by what has been written to it. -/
theorem eq_of_written {sink other : Sink} (written : sink.written = other.written)
    (capacity : sink.capacity? = other.capacity?) (refusal : sink.refusal = other.refusal) :
    sink = other := by
  obtain ⟨bytes, room, refused⟩ := sink
  obtain ⟨otherBytes, otherRoom, otherRefused⟩ := other
  cases written
  cases refusal
  obtain rfl : room = otherRoom :=
    Option.map_injective (fun _ _ same => Nat.add_right_cancel same) capacity
  rfl

end Sink

namespace Machine

variable {arithmetic : Arithmetic} {memory : Memory} {limit : Nat} {program : Expr} {state : State}

/-- An evaluation changes neither the capacity of the sink nor how it refuses. -/
theorem Ends.capacity? {ending : Ending Value}
    (ends : Ends arithmetic memory limit program state ending) :
    ending.state.sink.capacity? = state.sink.capacity? ∧
      ending.state.sink.refusal = state.sink.refusal := by
  have invariant : State.Invariant (state.depth + 1) limit fun there : State =>
      state.depth + 1 ≤ there.depth ∧ there.sink.capacity? = state.sink.capacity? ∧
        there.sink.refusal = state.sink.refusal := by
    refine ⟨fun holds => holds.1, fun holds step => ⟨step.base_le holds.1, ?_⟩⟩
    cases step with
    | opened | closed | assigned => exact holds.2
    | wrote bytes =>
        obtain ⟨capacity, refusal⟩ := Sink.capacity?_write _ bytes
        exact ⟨capacity.trans holds.2.1, refusal.trans holds.2.2⟩
  obtain unchanged | ⟨inner, ⟨_, same⟩, _, closed⟩ :=
    ends.within invariant fun operation room => ⟨Nat.le_refl _, rfl, rfl⟩
  · rw [unchanged]
    exact ⟨rfl, rfl⟩
  · rw [closed]
    exact same

end Machine

/-! ## Contexts -/

/-- A program with a hole in it. All the lists around the hole have it in an operand,
and not in one that is taken as it is written. -/
inductive Context where
  | hole
  | operand (head : Expr) (before : List Expr) (inner : Context) (after : List Expr)
      (evaluated : before ≠ [] ∨ ∀ operation ∈ Operation.literals, head ≠ .str operation.name)

/-- The program with an expression in its hole. -/
def Context.fill (part : Expr) : Context → Expr
  | .hole => part
  | .operand head before inner after _ => .list (head :: (before ++ inner.fill part :: after))

/-- Endings that show the same result, variables and output. -/
structure Ending.ShowsSame {α : Type} (ending other : Ending α) : Prop where
  result : ending.result = other.result
  environment : ending.state.environment = other.state.environment
  written : ending.state.sink.written = other.state.sink.written

namespace Machine

/-- Wherever they start, both expressions end and show the same, or neither ends. -/
def Equivalent (arithmetic : Arithmetic) (memory : Memory) (left right : Expr) : Prop :=
  ∀ limit environment sink depth,
    (∃ ending other, Ends arithmetic memory limit left ⟨environment, sink, #[], depth⟩ ending ∧
      Ends arithmetic memory limit right ⟨environment, sink, #[], depth⟩ other ∧
        ending.ShowsSame other) ∨
    (∀ ending, ¬ Ends arithmetic memory limit left ⟨environment, sink, #[], depth⟩ ending) ∧
      ∀ ending, ¬ Ends arithmetic memory limit right ⟨environment, sink, #[], depth⟩ ending

/-- Whenever the first expression ends, the second one settles so. -/
def Follows (arithmetic : Arithmetic) (memory : Memory) (left right : Expr) : Prop :=
  ∀ limit few, Action.Settles fun index =>
    (settling arithmetic memory limit few index).evaluate (index.elim left fun _ => right)

variable {arithmetic : Arithmetic} {memory : Memory} {left right : Expr}

/-- Equivalence is symmetric. -/
theorem Equivalent.symm (equivalent : Equivalent arithmetic memory left right) :
    Equivalent arithmetic memory right left := by
  intro limit environment sink depth
  obtain ⟨ending, other, ends, endsToo, same⟩ | ⟨never, neverToo⟩ :=
    equivalent limit environment sink depth
  · exact .inl ⟨other, ending, endsToo, ends, same.result.symm, same.environment.symm,
      same.written.symm⟩
  · exact .inr ⟨neverToo, never⟩

/-- From the same start, what an ending shows is all of it but what is reported. -/
theorem Ends.eq_reporting {limit : Nat} {state : State} {ending other : Ending Value}
    (ends : Ends arithmetic memory limit left state ending)
    (endsToo : Ends arithmetic memory limit right state other) (same : ending.ShowsSame other) :
    other = ending.reporting other.state.events := by
  obtain ⟨capacity, refusal⟩ := ends.capacity?
  obtain ⟨capacityToo, refusalToo⟩ := endsToo.capacity?
  have sink : other.state.sink = ending.state.sink :=
    Sink.eq_of_written same.written.symm (capacityToo.trans capacity.symm)
      (refusalToo.trans refusal.symm)
  have depth : other.state.depth = ending.state.depth := endsToo.depth.trans ends.depth.symm
  have environment := same.environment.symm
  have result := same.result.symm
  obtain ⟨_, _, _, _, _⟩ := ending
  obtain ⟨_, _, _, _, _⟩ := other
  cases result
  cases environment
  cases sink
  cases depth
  rfl

/-- Equivalent expressions settle alike, whatever has been reported before. -/
theorem Equivalent.follows (equivalent : Equivalent arithmetic memory left right) :
    Follows arithmetic memory left right := by
  intro limit few state ending events ended
  -- Equivalence speaks of starts at which nothing has been reported.
  obtain ⟨enough, reported, alike⟩ := settles_evaluate left state ending #[] ended
  have ends : Ends arithmetic memory limit left (state.reporting #[]) (ending.reporting reported) :=
    ⟨enough, alike enough (Nat.le_refl _)⟩
  obtain ⟨same, other, endsSame, endsToo, shows⟩ | ⟨never, _⟩ :=
    equivalent limit state.environment state.sink state.depth
  · obtain rfl := endsSame.unique ends
    have known := ends.eq_reporting endsToo shows
    obtain ⟨passes, endedToo⟩ := endsToo
    obtain ⟨enoughToo, reportedToo, alikeToo⟩ := settles_evaluate right _ _ events endedToo
    rw [known] at alikeToo
    exact ⟨enoughToo, reportedToo, alikeToo⟩
  · exact absurd ends (never _)

/-- Expressions that follow each other are equivalent. -/
theorem equivalent_of_follows (follows : Follows arithmetic memory left right)
    (followed : Follows arithmetic memory right left) :
    Equivalent arithmetic memory left right := by
  intro limit environment sink depth
  by_cases ends : ∃ ending, Ends arithmetic memory limit left ⟨environment, sink, #[], depth⟩ ending
  · obtain ⟨ending, few, ended⟩ := ends
    obtain ⟨enough, reported, alike⟩ := follows limit few _ _ #[] ended
    exact .inl ⟨ending, _, ⟨few, ended⟩, ⟨enough, alike enough (Nat.le_refl _)⟩, rfl, rfl, rfl⟩
  · refine .inr ⟨fun ending ended => ends ⟨ending, ended⟩, fun ending ended => ends ?_⟩
    obtain ⟨few, ended⟩ := ended
    obtain ⟨enough, reported, alike⟩ := followed limit few _ _ #[] ended
    exact ⟨_, enough, alike enough (Nat.le_refl _)⟩

/-- The operands of a list around a hole, in which the one machine evaluates the first
expression and the others evaluate the second one. -/
def around (machines : Option Nat → Machine) (left right : Expr) (before after : List Expr) :
    List (Operand.Family (Option Nat)) :=
  before.map (family machines) ++
    ⟨left, fun index => (machines index).evaluate (index.elim left fun _ => right)⟩ ::
      after.map (family machines)

/-- All machines do with these operands what the list with their expression in the hole
asks for. -/
theorem perform_around (machines : Option Nat → Machine) (left right : Expr) {head : Expr}
    {before : List Expr} (after : List Expr)
    (evaluated : before ≠ [] ∨ ∀ operation ∈ Operation.literals, head ≠ .str operation.name)
    (index : Option Nat) :
    (machines index).perform (((family machines head) ::
      around machines left right before after).map (Operand.Family.at · index)) =
      (machines index).perform ((machines index).operands
        (head :: (before ++ index.elim left (fun _ => right) :: after))) := by
  have runs : Operand.SameRuns
      ((around machines left right before after).map (Operand.Family.at · index))
      ((machines index).operands (before ++ index.elim left (fun _ => right) :: after)) := by
    have same (items : List Operand) : Operand.SameRuns items items :=
      List.forall₂_same.mpr fun _ _ => rfl
    simp only [around, List.map_append, List.map_cons, map_at_family, operands_eq_map]
    exact List.rel_append (same _) (.cons rfl (same _))
  rw [operands, List.map_cons]
  refine perform_congr _ _ runs ?_
  rintro ⟨operation, member, written⟩
  obtain nonempty | excluded := evaluated
  · obtain ⟨first, before, rfl⟩ := List.exists_cons_of_ne_nil nonempty
    rw [List.cons_append, operands]
    rfl
  · exact absurd written (excluded operation member)

/-- Lists follow each other when they differ in one operand that is evaluated. -/
theorem Follows.operand (follows : Follows arithmetic memory left right) {head : Expr}
    {before : List Expr} (after : List Expr)
    (evaluated : before ≠ [] ∨ ∀ operation ∈ Operation.literals, head ≠ .str operation.name) :
    Follows arithmetic memory (.list (head :: (before ++ left :: after)))
      (.list (head :: (before ++ right :: after))) := by
  intro limit few
  have settles : ∀ operand ∈ family (settling arithmetic memory limit few) head ::
      around (settling arithmetic memory limit few) left right before after,
        Action.Settles operand.run := by
    simp only [around, List.mem_cons, List.mem_append, List.mem_map]
    rintro operand (rfl | ⟨_, _, rfl⟩ | rfl | ⟨_, _, rfl⟩)
    · exact settles_evaluate head
    · exact settles_evaluate _
    · exact follows limit few
    · exact settles_evaluate _
  have opened := @settles_list arithmetic memory limit few _ settles
  simp only [perform_around _ _ _ _ evaluated] at opened
  have filled (index : Option Nat) :
      index.elim (.list (head :: (before ++ left :: after)))
          (fun _ => .list (head :: (before ++ right :: after))) =
        Expr.list (head :: (before ++ index.elim left (fun _ => right) :: after)) := by
    cases index <;> rfl
  simp only [filled, evaluate_list]
  exact opened

/-- A list that cannot be opened fails at once. -/
theorem ends_of_full {limit : Nat} {state : State} (full : limit ≤ state.depth)
    (items : List Expr) :
    Ends arithmetic memory limit (.list items) state ⟨.error (.depthExceeded limit), state⟩ :=
  ⟨0, by rw [evaluate_list, Action.nested_of_le _ full]⟩

/-- A loop whose test is false does nothing, and neither does a form that prints
nothing. -/
theorem equivalent_skipped_loop (arithmetic : Arithmetic) (memory : Memory) (first : Expr)
    (following : List Expr) :
    Equivalent arithmetic memory
      (.form Operation.whileTrue.name (.bool false :: first :: following))
      (.form Operation.print.name []) := by
  intro limit environment sink depth
  by_cases room : depth < limit
  · have skipped : Ends arithmetic memory limit
        (.form Operation.whileTrue.name (.bool false :: first :: following))
        ⟨environment, sink, #[], depth⟩
        ⟨.ok .nothing, ⟨environment, sink, #[.dispatch .whileTrue (depth + 1)], depth⟩⟩ := by
      refine ⟨1, ?_⟩
      rw [Expr.form, evaluate_list, Action.nested, if_pos room, operands, operands, operands]
      rfl
    have printed : Ends arithmetic memory limit (.form Operation.print.name [])
        ⟨environment, sink, #[], depth⟩
        ⟨.ok .nothing, ⟨environment, sink, #[.dispatch .print (depth + 1)], depth⟩⟩ := by
      refine ⟨0, ?_⟩
      rw [Expr.form, evaluate_list, Action.nested, if_pos room, operands, operands]
      rfl
    exact .inl ⟨_, _, skipped, printed, rfl, rfl, rfl⟩
  · have full := Nat.not_lt.mp room
    exact .inl ⟨_, _, ends_of_full full _, ends_of_full full _, rfl, rfl, rfl⟩

/-- Equivalent expressions are interchangeable in every program that evaluates them
where they stand. -/
theorem equivalent_parts_are_interchangeable (equivalent : Equivalent arithmetic memory left right)
    (context : Context) :
    Equivalent arithmetic memory (context.fill left) (context.fill right) := by
  induction context with
  | hole => exact equivalent
  | operand head before inner after evaluated inductionHypothesis =>
      have follows := inductionHypothesis.follows.operand after evaluated
      have followed := inductionHypothesis.symm.follows.operand after evaluated
      exact equivalent_of_follows follows followed

/-- A loop that is skipped, in a branch that is repeated. A form that prints nothing does
as well there. -/
theorem equivalent_parts_are_interchangeable_skipped :
    Equivalent .word64 (.below 16)
        (.form Operation.whileTrue.name [.bool false, .form Operation.abs.name []])
        (.form Operation.print.name []) ∧
      Equivalent .word64 (.below 16)
        (.form Operation.repeatTimes.name [.int 2, .form Operation.ifThen.name [.bool true,
          .form Operation.whileTrue.name [.bool false, .form Operation.abs.name []]]])
        (.form Operation.repeatTimes.name [.int 2, .form Operation.ifThen.name [.bool true,
          .form Operation.print.name []]]) := by
  have skipped := equivalent_skipped_loop .word64 (.below 16) (.form Operation.abs.name []) []
  exact ⟨skipped, equivalent_parts_are_interchangeable skipped
    (.operand (.str Operation.repeatTimes.name) [.int 2]
      (.operand (.str Operation.ifThen.name) [.bool true] .hole [] (.inl nofun)) [] (.inl nofun))⟩

end Machine

end JsonForms
