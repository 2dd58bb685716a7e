import JsonForms.Proofs.Evaluation.Abreast
import JsonForms.Proofs.Evaluation.Depth
import JsonForms.Proofs.Evaluation.Frame

/-!
# Programs that commute

Of two programs that set no variable which the other one reads or sets, neither
notices whether the other one is evaluated before it. What each of them changes is
in its frame, and what it does depends on nothing else, so the variables are the
same in the end, although they are set in another order.
-/

namespace JsonForms

/-- No variable that the program sets is read or set by the other one. -/
def Expr.Spares (program other : Expr) : Prop :=
  ∀ name, program.Sets name → ¬ other.Reads name ∧ ¬ other.Sets name

namespace Machine

variable {arithmetic : Arithmetic} {memory : Memory} {limit : Nat} {first second : Expr}
  {state : State} {ending : Ending Value}

/-- What a program reads is as it was before one that spares it. -/
theorem Ends.agree_of_spares (ends : Ends arithmetic memory limit first state ending)
    (spares : first.Spares second) (name : String) (reads : second.Reads name) :
    ending.state.environment.get? name = state.environment.get? name :=
  ends.get?_eq fun sets => (spares name sets).1 reads

/-- Sinks that take everything are alike, before an evaluation and after it. -/
theorem Ends.alike (ends : Ends arithmetic memory limit first state ending)
    (unlimited : state.sink.room = none) :
    state.sink.Alike ending.state.sink ∧ ending.state.sink.Alike state.sink := by
  have after := ends.unlimited unlimited
  exact ⟨⟨by rw [after, unlimited], fun limited => absurd unlimited limited⟩,
    ⟨by rw [after, unlimited], fun limited => absurd after limited⟩⟩

/-- Two programs that spare each other can be evaluated in either order, if their
sink takes everything. When the one order gives two values, the other one gives
the same values, each program prints the same bytes, and the variables are the
same in the end. -/
theorem independent_programs_commute (apart : first.Spares second) (apartToo : second.Spares first)
    (unlimited : state.sink.room = none) {firstValue secondValue : Value} {middle final : State}
    (ends : Ends arithmetic memory limit first state ⟨.ok firstValue, middle⟩)
    (endsNext : Ends arithmetic memory limit second middle ⟨.ok secondValue, final⟩) :
    ∃ between last, Ends arithmetic memory limit second state ⟨.ok secondValue, between⟩ ∧
      Ends arithmetic memory limit first between ⟨.ok firstValue, last⟩ ∧
      (∃ firstBytes secondBytes,
        middle.sink.written = state.sink.written ++ firstBytes ∧
        final.sink.written = middle.sink.written ++ secondBytes ∧
        between.sink.written = state.sink.written ++ secondBytes ∧
        last.sink.written = between.sink.written ++ firstBytes) ∧
      last.environment = final.environment := by
  -- The second program goes abreast with itself from the start, where it is not preceded.
  obtain ⟨between, endsSecond, reached⟩ := endsNext.abreast 0 state
    (fun name reads => ends.agree_of_spares apart name reads) ends.depth.symm
    (ends.alike unlimited).2
  -- The first one goes abreast with itself from where that ends.
  obtain ⟨last, endsFirst, reachedLast⟩ := ends.abreast 0 between
    (fun name reads => (endsSecond.agree_of_spares apartToo name reads).symm) endsSecond.depth
    (endsSecond.alike unlimited).1
  obtain ⟨secondBytes, writtenFinal, writtenBetween⟩ := reached.written
  obtain ⟨firstBytes, writtenMiddle, writtenLast⟩ := reachedLast.written
  refine ⟨between, last, endsSecond, endsFirst,
    ⟨firstBytes, secondBytes, writtenMiddle, writtenFinal, writtenBetween, writtenLast⟩, ?_⟩
  ext1 name
  by_cases sets : first.Sets name
  · have unset := (apart name sets).2
    have finalSame := endsNext.get?_eq unset
    have betweenSame := endsSecond.get?_eq unset
    obtain ⟨middleKept, lastKept⟩ | same := reachedLast.bindings name
    · rw [lastKept, betweenSame, finalSame, middleKept]
    · rw [same, finalSame]
  · have middleSame := ends.get?_eq sets
    have lastSame := endsFirst.get?_eq sets
    obtain ⟨finalKept, betweenKept⟩ | same := reached.bindings name
    · rw [lastSame, betweenKept, finalKept, middleSame]
    · rw [lastSame, same]

/-- Two programs, one that sets a variable and prints and one that sets another. -/
theorem independent_programs_commute_print :
    let first := Expr.form "print" [.str "p", .form "set" [.str "x", .str "q"]]
    let second := Expr.form "set" [.str "y", .form "get" [.str "a"]]
    let state : State := ⟨.ofList [("a", .int 1)], .unlimited, #[], 0⟩
    let middle : State := ⟨state.environment.set "x" (.str "q"),
      ⟨"p\nq\n".toByteArray, none, .full⟩,
      #[.dispatch .print 1, .dispatch .set 2, .set "x" (.str "q")], 0⟩
    first.Spares second ∧ second.Spares first ∧
      Ends .word64 (.below 16) 2 first state ⟨.ok .nothing, middle⟩ ∧
    ∃ final between last, Ends .word64 (.below 16) 2 second middle ⟨.ok (.int 1), final⟩ ∧
      Ends .word64 (.below 16) 2 second state ⟨.ok (.int 1), between⟩ ∧
      Ends .word64 (.below 16) 2 first between ⟨.ok .nothing, last⟩ ∧
      last.environment = final.environment := by
  intro first second state middle
  have apart : first.Spares second := by
    intro name sets
    obtain rfl : name = "x" := by
      simpa [first, Expr.Sets, Expr.form, Operation.name] using sets
    simp [second, Expr.Reads, Expr.Sets, Expr.form, Operation.name]
  have apartToo : second.Spares first := by
    intro name sets
    obtain rfl : name = "y" := by
      simpa [second, Expr.Sets, Expr.form, Operation.name] using sets
    simp [first, Expr.Reads, Expr.Sets, Expr.form, Operation.name]
  have ends : Ends .word64 (.below 16) 2 first state ⟨.ok .nothing, middle⟩ := ⟨0, rfl⟩
  have endsNext : Ends .word64 (.below 16) 2 second middle ⟨.ok (.int 1),
      ⟨middle.environment.set "y" (.int 1), middle.sink,
        middle.events ++ #[.dispatch .set 1, .dispatch .get 2, .set "y" (.int 1)], 0⟩⟩ := ⟨0, rfl⟩
  obtain ⟨between, last, endsSecond, endsFirst, _, same⟩ :=
    independent_programs_commute apart apartToo rfl ends endsNext
  exact ⟨apart, apartToo, ends, _, between, last, endsNext, endsSecond, endsFirst, same⟩

end Machine

end JsonForms
