import JsonForms.Proofs.Evaluation.Attempts
import JsonForms.Proofs.Evaluation.Passes
import JsonForms.Proofs.Evaluation.Values
import Mathlib.Data.Set.Finite.Lattice
import Mathlib.Tactic.Choose

/-!
# Evaluations stay in bounds

An evaluation by position is never broken. Its operands are where they are taken
because the number of operands has been checked against the arity, which stands
in another place than what the operation does; and its numbers are words because
it starts with words and computes words. It does what the evaluation does, so it
ends with a value or an error, or a loop of the program uses up its passes.

`Attempt.Follows` is what every step keeps of this. The operations are gone
through once more, now with the positions at which they take their operands.
-/

namespace JsonForms

/-- The value is a word of 64 bits with a sign if it is an integer. -/
def Value.IsWord : Value → Prop
  | .int value => Arithmetic.word64.represents value
  | .str _ | .bool _ | .array _ | .nothing => True

/-- A state in which an evaluation by position can start: no more forms are open
than the limit allows, and the integers of variables are words. -/
structure State.Sound (limit : Nat) (state : State) : Prop where
  depth : state.depth ≤ limit
  words : state.environment.All Value.IsWord

/-- From sound states the attempt ends as the action does, in a sound state with
as many open forms, or the action has no ending and the attempt is in one of the
loops. -/
def Attempt.Follows (limit : Nat) (Loop : List Expr → Prop) {α : Type} (post : α → Prop)
    (attempt : Attempt α) (action : Action α) : Prop :=
  ∀ state : State, state.Sound limit →
    (∃ ending, action state = some ending ∧ attempt state = .ended ending ∧
      ending.state.Sound limit ∧ ending.state.depth = state.depth ∧
        ∀ value, ending.result = .ok value → post value) ∨
    ∃ operands, Loop operands ∧ action state = none ∧ attempt state = .looping operands

namespace Attempt

variable {α β : Type} {limit : Nat} {Loop : List Expr → Prop}

/-- An attempt that follows a value goes on from the state the value was found in. -/
theorem bind_of_ok {first : Attempt α} {state after : State} {value : α}
    (ended : first state = .ended ⟨.ok value, after⟩) (next : α → Attempt β) :
    first.bind next state = next value after := by
  simp [Attempt.bind, ended]

/-- Nothing is attempted after an error. -/
theorem bind_of_error {first : Attempt α} {state after : State} {error : EvalError}
    (ended : first state = .ended ⟨.error error, after⟩) (next : α → Attempt β) :
    first.bind next state = .ended ⟨.error error, after⟩ := by
  simp [Attempt.bind, ended]

/-- Nothing is attempted after a loop that uses up its passes. -/
theorem bind_of_looping {first : Attempt α} {state : State} {operands : List Expr}
    (looping : first state = .looping operands) (next : α → Attempt β) :
    first.bind next state = .looping operands := by
  simp [Attempt.bind, looping]

/-! ## Steps -/

/-- The attempt that only has a value follows the action that does, if the value is admitted. -/
theorem follows_pure {post : α → Prop} {value : α} (admitted : post value) :
    Follows limit Loop post (Attempt.pure value) (Action.pure value) := by
  intro state sound
  refine .inl ⟨_, rfl, rfl, sound, rfl, fun _ same => ?_⟩
  cases same
  exact admitted

/-- A failure is followed by the attempt at it. -/
theorem follows_fail {post : α → Prop} (error : EvalError) :
    Follows limit Loop post (fail error) (Action.fail error) :=
  fun _ sound => .inl ⟨_, rfl, rfl, sound, rfl, nofun⟩

/-- A step that ends is an attempt that ends so. -/
theorem step_of_ended {action : Action α} {state : State} {ending : Ending α}
    (ended : action state = some ending) : step action state = .ended ending := by
  simp only [step, ended]

/-- Announcing an operation leaves the state sound. -/
theorem follows_announce (operation : Operation) :
    Follows limit Loop (fun _ => True) (step (Action.announce operation))
      (Action.announce operation) :=
  fun _ sound => .inl ⟨_, rfl, rfl, ⟨sound.depth, sound.words⟩, rfl, fun _ _ => trivial⟩

/-- The value of a variable of a sound state is a word if it is an integer. -/
theorem follows_lookup (name : String) :
    Follows limit Loop Value.IsWord (step (Action.lookup name)) (Action.lookup name) := by
  intro state sound
  cases found : state.environment.get? name with
  | some value =>
      have ended : Action.lookup name state = some ⟨.ok value, state⟩ := by
        simp only [Action.lookup, found]
      refine .inl ⟨_, ended, step_of_ended ended, sound, rfl, fun _ same => ?_⟩
      cases same
      exact sound.words name value found
  | none =>
      have ended : Action.lookup name state = some ⟨.error (.undefinedVariable name), state⟩ := by
        simp only [Action.lookup, found]
      exact .inl ⟨_, ended, step_of_ended ended, sound, rfl, nofun⟩

/-- Setting a variable to a word leaves the state sound. -/
theorem follows_assign (name : String) {value : Value} (isWord : value.IsWord) :
    Follows limit Loop (fun _ => True) (step (Action.assign name value))
      (Action.assign name value) :=
  fun _ sound =>
    .inl ⟨_, rfl, rfl, ⟨sound.depth, sound.words.set isWord name⟩, rfl, fun _ _ => trivial⟩

/-- Printing leaves the state sound, also when the sink refuses the line. -/
theorem follows_writeLine (value : Value) :
    Follows limit Loop (fun _ => True) (step (Action.writeLine value))
      (Action.writeLine value) := by
  intro state sound
  have written := Action.writeLine_eq value state
  split at written
  all_goals
    exact .inl ⟨_, written, step_of_ended written, ⟨sound.depth, sound.words⟩, rfl,
      fun _ _ => trivial⟩

/-- An array that is reserved is no integer, and one that is not is an error. -/
theorem follows_allocate (memory : Memory) (count : Nat) :
    Follows limit Loop Value.IsWord (step (Operation.allocate memory count))
      (Operation.allocate memory count) := by
  intro state sound
  unfold Operation.allocate
  split
  · exact follows_pure (show Value.IsWord (.array _) from trivial) state sound
  · exact follows_fail _ state sound

/-! ## Sequences and forms -/

/-- Attempts follow actions one after another. -/
theorem Follows.bind {between : α → Prop} {post : β → Prop} {first : Attempt α}
    {action : Action α} {next : α → Attempt β} {after : α → Action β}
    (follows : Follows limit Loop between first action)
    (followsNext : ∀ value, between value → Follows limit Loop post (next value) (after value)) :
    Follows limit Loop post (first.bind next) (action.bind after) := by
  intro state sound
  obtain ⟨⟨error | value, middle⟩, acted, attempted, kept, level, admitted⟩ |
    ⟨operands, loops, acted, attempted⟩ := follows state sound
  · exact .inl ⟨_, Action.bind_of_error acted _, bind_of_error attempted _, kept, level, nofun⟩
  · rw [Action.bind_of_ok acted, bind_of_ok attempted]
    have level : middle.depth = state.depth := level
    rw [← level]
    exact followsNext value (admitted value rfl) middle kept
  · exact .inr ⟨operands, loops, Action.bind_of_none acted _, bind_of_looping attempted _⟩

/-- A form that may be opened is counted by a word, and it is there when it is closed. -/
theorem Follows.nested {post : α → Prop} {inner : Attempt α} {action : Action α}
    (follows : Follows limit Loop post inner action) (word : limit < UInt64.size) :
    Follows limit Loop post (nested limit inner) (Action.nested limit action) := by
  intro state sound
  unfold Attempt.nested
  by_cases full : limit ≤ state.depth
  · rw [if_pos full, Action.nested_of_le action full]
    exact .inl ⟨_, rfl, rfl, sound, rfl, nofun⟩
  · have room := Nat.not_le.mp full
    have counted : ¬ UInt64.size ≤ state.depth + 1 := by omega
    rw [if_neg full, if_neg counted]
    obtain ⟨⟨result, after⟩, acted, attempted, kept, level, admitted⟩ |
      ⟨operands, loops, acted, attempted⟩ :=
        follows { state with depth := state.depth + 1 } ⟨room, sound.words⟩
    · have level : after.depth = state.depth + 1 := level
      have opened : after.depth ≠ 0 := by omega
      have closed : after.depth - 1 = state.depth := by omega
      simp only [attempted, if_neg opened, Action.nested_of_lt room acted]
      refine .inl ⟨_, rfl, rfl, ⟨?_, kept.words⟩, closed, admitted⟩
      exact Nat.le_trans (Nat.sub_le _ _) kept.depth
    · simp only [attempted]
      exact .inr ⟨operands, loops, Action.nested_of_none room acted, rfl⟩

/-- An attempt that is repeated follows the repeated action. -/
theorem Follows.times {post : α → Prop} {attempt : Attempt α} {action : Action α}
    (follows : Follows limit Loop post attempt action) (count : Nat) :
    Follows limit Loop (fun _ => True) (attempt.times count) (action.times count) := by
  induction count with
  | zero => exact follows_pure trivial
  | succ count inductionHypothesis => exact follows.bind fun _ _ => inductionHypothesis

/-- A loop that has used up its passes is one of the loops. -/
theorem Follows.loop {test : Attempt Value} {condition : Action Value} {body : Attempt Unit}
    {block : Action Unit} {operands : List Expr} (loops : Loop operands)
    (tests : Follows limit Loop Value.IsWord test condition)
    (bodies : Follows limit Loop (fun _ => True) body block) (passes : Nat) :
    Follows limit Loop (fun _ => True) (loop operands test body passes)
      (Action.loop condition block passes) := by
  induction passes with
  | zero => exact fun _ _ => .inr ⟨operands, loops, rfl, rfl⟩
  | succ passes inductionHypothesis =>
      refine tests.bind fun value _ => ?_
      cases value.isTruthy with
      | true => exact bodies.bind fun _ _ => inductionHypothesis
      | false => exact follows_pure trivial

/-! ## Computing -/

/-- An integer that is represented is a word. -/
theorem word_of_represents {value : Int} (represented : Arithmetic.word64.represents value) :
    word value = Attempt.pure (Int64.ofInt value) := if_pos represented

/-- A result that is computed with words is the exact one, if this is a word. -/
theorem follows_trapping {computed : Option Int64} {exact : Int}
    (same : computed.map Int64.toInt =
      if Arithmetic.word64.represents exact then some exact else none)
    (overflow : Overflow) :
    Follows limit Loop Value.IsWord (trapping computed overflow)
      (Action.ofExcept (Arithmetic.word64.checked exact overflow)) := by
  by_cases represented : Arithmetic.word64.represents exact
  · rw [if_pos represented] at same
    obtain ⟨result, rfl, value⟩ := Option.map_eq_some_iff.mp same
    rw [Arithmetic.checked, if_pos represented, ← value]
    exact follows_pure (Word.represents_toInt result)
  · rw [if_neg represented, Option.map_eq_none_iff] at same
    subst same
    rw [Arithmetic.checked, if_neg represented]
    exact follows_fail _

/-- The absolute value of a word is computed or trapped in words as among integers. -/
theorem follows_abs {value : Value} (isWord : value.IsWord) :
    Follows limit Loop Value.IsWord (abs value)
      (Action.ofExcept (Arithmetic.word64.abs value)) := by
  cases value with
  | int operand =>
      have same := Word.toInt_abs? (Int64.ofInt operand)
      rw [Word.toInt_ofInt isWord] at same
      rw [abs, word_of_represents isWord]
      exact follows_trapping same (.abs operand)
  | str | bool | array | nothing => exact follows_fail _

/-- The sum of two words is computed or trapped in words as among integers. -/
theorem follows_add {left right : Value} (leftWord : left.IsWord) (rightWord : right.IsWord) :
    Follows limit Loop Value.IsWord (add left right)
      (Action.ofExcept (Arithmetic.word64.add left right)) := by
  cases left with
  | int first =>
      cases right with
      | int second =>
          have same := Word.toInt_add? (Int64.ofInt first) (Int64.ofInt second)
          rw [Word.toInt_ofInt leftWord, Word.toInt_ofInt rightWord] at same
          rw [add, word_of_represents leftWord, word_of_represents rightWord]
          exact follows_trapping same (.add first second)
      | str | bool | array | nothing => exact follows_fail _
  | str first =>
      cases right with
      | str second => exact follows_pure (show Value.IsWord (.str _) from trivial)
      | int | bool | array | nothing => exact follows_fail _
  | bool | array | nothing => cases right <;> exact follows_fail _

/-! ## Operands

The operands of both sides are the same expressions, which are evaluated in two
ways, so that one follows the other. -/

variable {run : Expr → Attempt Value} {act : Expr → Action Value} {items : List Expr}

/-- An expression as an operand of an action. -/
def acting (act : Expr → Action Value) (expr : Expr) : JsonForms.Operand := ⟨expr, act expr⟩

/-- Operands taken by position follow those taken from the front, with the value of the last one. -/
theorem follows_runLast {first : Expr}
    (follows : ∀ item ∈ first :: items, Follows limit Loop Value.IsWord (run item) (act item))
    (last : Value) :
    Follows limit Loop Value.IsWord (runLast last ((first :: items).map (Operand.of run)))
      (JsonForms.Operand.runLast (acting act first) (items.map (acting act))) := by
  induction items generalizing first last with
  | nil =>
      have ended := (follows first (.head _)).bind fun value isWord =>
        (follows_pure isWord : Follows limit Loop _ _ (Action.pure value))
      rwa [Action.bind_pure] at ended
  | cons next items inductionHypothesis =>
      have later := inductionHypothesis fun item member => follows item (.tail _ member)
      exact (follows first (.head _)).bind fun value _ => later value

/-- Operands taken by position follow those taken from the front. -/
theorem follows_runEach
    (follows : ∀ item ∈ items, Follows limit Loop Value.IsWord (run item) (act item)) :
    Follows limit Loop (fun _ => True) (runEach (items.map (Operand.of run)))
      (JsonForms.Operand.runEach (items.map (acting act))) := by
  induction items with
  | nil => exact follows_pure trivial
  | cons first items inductionHypothesis =>
      have later := inductionHypothesis fun item member => follows item (.tail _ member)
      exact (follows first (.head _)).bind fun _ _ => later

/-- Operands printed by position follow those printed from the front. -/
theorem follows_printEach
    (follows : ∀ item ∈ items, Follows limit Loop Value.IsWord (run item) (act item)) :
    Follows limit Loop (fun _ => True) (printEach (items.map (Operand.of run)))
      (JsonForms.Operand.printEach (items.map (acting act))) := by
  induction items with
  | nil => exact follows_pure trivial
  | cons first items inductionHypothesis =>
      have later := inductionHypothesis fun item member => follows item (.tail _ member)
      refine (follows first (.head _)).bind fun value _ => ?_
      exact (follows_writeLine value).bind fun _ _ => later

/-- A name that is written first is where it is taken. -/
theorem follows_variableName {target : Expr} {following : List Operand} {operation : Operation}
    {next : String → Attempt Value} {after : String → Action Value}
    (follows : ∀ name, Follows limit Loop Value.IsWord (next name) (after name)) :
    Follows limit Loop Value.IsWord
      ((variableName operation (Operand.of run target :: following) 0).bind next)
      (((acting act target).variableName operation 0).bind after) := by
  have taken : variableName operation (Operand.of run target :: following) 0 =
      (Operand.of run target).variableName operation 0 := rfl
  rw [taken, Operand.variableName, Operand.of, JsonForms.Operand.variableName_eq, acting]
  cases target.str? with
  | some name => exact follows name
  | none => exact follows_fail _

/-- A number that is written first is where it is taken. -/
theorem follows_count {written : Expr} {following : List Operand} {operation : Operation}
    {next : Nat → Attempt Value} {after : Nat → Action Value}
    (follows : ∀ number, Follows limit Loop Value.IsWord (next number) (after number)) :
    Follows limit Loop Value.IsWord
      ((count operation (Operand.of run written :: following) 0).bind next)
      (((acting act written).count operation 0).bind after) := by
  have taken : count operation (Operand.of run written :: following) 0 =
      (Operand.of run written).count operation 0 := rfl
  rw [taken, Operand.count, Operand.of, JsonForms.Operand.count_eq, acting,
    ← Word.toNat_unsigned?]
  cases written.int?.bind Word.unsigned? with
  | some number => exact follows number.toNat
  | none => exact follows_fail _

/-! ## Operations -/

/-- Two operands are where they are taken. -/
theorem follows_two {first second : Expr} {last : Value → Value → Attempt Value}
    {final : Value → Value → Action Value}
    (follows : ∀ item ∈ [first, second], Follows limit Loop Value.IsWord (run item) (act item))
    (computes : ∀ left right, left.IsWord → right.IsWord →
      Follows limit Loop Value.IsWord (last left right) (final left right)) :
    Follows limit Loop Value.IsWord
      ((value ([first, second].map (Operand.of run)) 0).bind fun left =>
        (value ([first, second].map (Operand.of run)) 1).bind fun right => last left right)
      ((act first).bind fun left => (act second).bind fun right => final left right) := by
  refine (follows first (.head _)).bind fun left leftWord => ?_
  refine (follows second (.tail _ (.head _))).bind fun right rightWord => ?_
  exact computes left right leftWord rightWord

/-- Two operands taken by position are compared as those taken from the front. -/
theorem follows_ordered {operation : Operation} {holds : Ordering → Bool} {first second : Expr}
    (follows : ∀ item ∈ [first, second], Follows limit Loop Value.IsWord (run item) (act item)) :
    Follows limit Loop Value.IsWord
      (ordered operation holds ([first, second].map (Operand.of run)))
      (Operation.ordered operation holds (acting act first) (acting act second)) := by
  refine follows_two follows fun left right _ _ => ?_
  cases left.order? right with
  | some ordering => exact follows_pure (show Value.IsWord (.bool _) from trivial)
  | none => exact follows_fail _

/-- An operation that applies to its operands finds each of them where it takes
it, and does with them what it does when it applies. -/
theorem follows_handle {memory : Memory} {passes : Nat} {operation : Operation}
    (follows : ∀ item ∈ items, Follows limit Loop Value.IsWord (run item) (act item))
    (loops : operation = .whileTrue → Loop items) {action : Action Value}
    (applied : operation.apply ⟨.word64, memory, limit, passes⟩ (items.map (acting act)) =
      some action) :
    Follows limit Loop Value.IsWord
      (handle memory passes operation (items.map (Operand.of run))) action := by
  have nothing : Value.IsWord .nothing := trivial
  -- In each case only the numbers of operands are left to which the operation applies.
  cases operation with
  | abs =>
      rcases items with _ | ⟨operand, _ | _⟩ <;> cases applied
      exact (follows operand (.head _)).bind fun value isWord => follows_abs isWord
  | add =>
      rcases items with _ | ⟨first, _ | ⟨second, _ | _⟩⟩ <;> cases applied
      exact follows_two follows fun _ _ leftWord rightWord => follows_add leftWord rightWord
  | equal =>
      rcases items with _ | ⟨first, _ | ⟨second, _ | _⟩⟩ <;> cases applied
      exact follows_two follows fun left right _ _ =>
        follows_pure (show Value.IsWord (.bool _) from trivial)
  | leq =>
      rcases items with _ | ⟨first, _ | ⟨second, _ | _⟩⟩ <;> cases applied
      exact follows_ordered follows
  | geq =>
      rcases items with _ | ⟨first, _ | ⟨second, _ | _⟩⟩ <;> cases applied
      exact follows_ordered follows
  | get =>
      rcases items with _ | ⟨target, _ | _⟩ <;> cases applied
      exact follows_variableName fun name => follows_lookup name
  | set =>
      rcases items with _ | ⟨target, _ | ⟨operand, _ | _⟩⟩ <;> cases applied
      refine follows_variableName fun name => ?_
      refine (follows operand (.tail _ (.head _))).bind fun value isWord => ?_
      exact (follows_assign name isWord).bind fun _ _ => follows_pure isWord
  | seq =>
      rcases items with _ | ⟨first, following⟩ <;> cases applied
      exact follows_runLast follows .nothing
  | ifThen =>
      rcases items with _ | ⟨test, _ | ⟨body, _ | ⟨otherwise, _ | _⟩⟩⟩ <;> cases applied
      · refine (follows test (.head _)).bind fun value _ => ?_
        cases value.isTruthy with
        | true => exact follows body (.tail _ (.head _))
        | false => exact follows_pure nothing
      · refine (follows test (.head _)).bind fun value _ => ?_
        cases value.isTruthy with
        | true => exact follows body (.tail _ (.head _))
        | false => exact follows otherwise (.tail _ (.tail _ (.head _)))
  | whileTrue =>
      rcases items with _ | ⟨test, _ | ⟨first, following⟩⟩ <;> cases applied
      have body := follows_runEach fun item (member : item ∈ first :: following) =>
        follows item (.tail _ member)
      have loop := Follows.loop (loops rfl) (follows test (.head _)) body passes
      have written : (test :: first :: following).map (Operand.expr ∘ Operand.of run) =
          test :: first :: following := List.map_id _
      rw [← written, ← List.map_map] at loop
      exact loop.bind fun _ _ => follows_pure nothing
  | repeatTimes =>
      rcases items with _ | ⟨number, _ | ⟨body, _ | _⟩⟩ <;> cases applied
      refine follows_count fun number => ?_
      have repeated := (follows body (.tail _ (.head _))).times number
      exact repeated.bind fun _ _ => follows_pure nothing
  | print =>
      cases applied
      exact (follows_printEach follows).bind fun _ _ => follows_pure nothing
  | array =>
      rcases items with _ | ⟨number, _ | _⟩ <;> cases applied
      exact follows_count fun number => follows_allocate memory number

/-- Without the check of their number, an operand can be missing. -/
example (memory : Memory) :
    handle memory 0 .add [⟨.int 1, Attempt.pure (.int 1)⟩] default = .broken (.operand 1 1) := rfl

/-! ## Expressions -/

/-- An opened list checks its operands before it takes them. -/
theorem follows_perform {memory : Memory} {passes : Nat}
    (follows : ∀ item ∈ items, Follows limit Loop Value.IsWord (run item) (act item))
    (loops : ∀ operands, items = .str Operation.whileTrue.name :: operands → Loop operands) :
    Follows limit Loop Value.IsWord (perform memory passes (items.map (Operand.of run)))
      (Machine.perform ⟨.word64, memory, limit, passes⟩ (items.map (acting act))) := by
  rcases items with _ | ⟨head, operands⟩
  · exact follows_fail _
  cases head with
  | str name =>
      cases found : Operation.ofName? name with
      | none =>
          simp only [List.map_cons, Operand.of, acting, perform, Machine.perform, found]
          exact follows_fail _
      | some operation =>
          obtain rfl := Operation.name_of_ofName? found
          simp only [List.map_cons, Operand.of, acting, perform, Operation.ofName?_name]
          cases applied : operation.apply ⟨.word64, memory, limit, passes⟩
              (operands.map (acting act)) with
          | none =>
              have refused := Operation.refuses_of_apply applied
              rw [List.length_map] at refused
              rw [Machine.perform_of_refused applied, List.length_map, List.length_map, refused]
              exact follows_fail _
          | some action =>
              have accepted : operation.arity.accepts operands.length := by
                rw [← List.length_map (acting act), ← Operation.apply_isSome_iff, applied]
                rfl
              have later : ∀ item ∈ operands,
                  Follows limit Loop Value.IsWord (run item) (act item) := fun item member =>
                follows item (.tail _ member)
              have handled := follows_handle later (fun loop => loops _ (by rw [loop])) applied
              rw [Machine.perform_of_applied applied, List.length_map, if_pos accepted]
              exact (follows_announce operation).bind fun _ _ => handled
  | int | bool | list => exact follows_fail _

/-- The evaluation of a program by position follows its evaluation. -/
theorem follows_evaluate (memory : Memory) (word : limit < UInt64.size) (passes : Nat)
    (program : Expr)
    (loops : ∀ operands, program.Contains (.form Operation.whileTrue.name operands) →
      Loop operands) :
    Follows limit Loop Value.IsWord (evaluate memory limit passes program)
      (Machine.evaluate ⟨.word64, memory, limit, passes⟩ program) := by
  induction program using Expr.induct with
  | int value =>
      exact follows_pure (show Value.IsWord (.int _) from Word.represents_toInt value)
  | str text => exact follows_pure (show Value.IsWord (.str text) from trivial)
  | bool value => exact follows_pure (show Value.IsWord (.bool value) from trivial)
  | list items inductionHypothesis =>
      rw [evaluate_list, Machine.evaluate_list, operands_eq_map, Machine.operands_eq_map]
      refine Follows.nested (follows_perform (fun item member => ?_) fun operands same => ?_) word
      · exact inductionHypothesis item member fun operands inside =>
          loops operands (.inside member inside)
      · subst same
        exact loops operands (.self _)

end Attempt

/-! ## Programs -/

/-- An expression has finitely many parts. -/
theorem Expr.finite_parts (expr : Expr) : {part | expr.Contains part}.Finite := by
  induction expr using Expr.induct with
  | int | str | bool => simp
  | list items inductionHypothesis =>
      have inside := (List.finite_toSet items).biUnion inductionHypothesis
      refine (inside.insert (.list items)).subset fun part contains => ?_
      simpa using contains

/-- Of finitely many things, if one occurs every time, then one occurs again and again. -/
theorem exists_recurring {α : Type} {things : Set α} (finite : things.Finite)
    {Occurs : Nat → α → Prop} (occurs : ∀ time, ∃ thing ∈ things, Occurs time thing) :
    ∃ thing ∈ things, ∀ bound, ∃ time, bound ≤ time ∧ Occurs time thing := by
  by_contra never
  push Not at never
  choose! bound rare using never
  obtain ⟨thing, member, occurred⟩ := occurs (finite.toFinset.sup bound)
  have late : bound thing ≤ finite.toFinset.sup bound :=
    Finset.le_sup (finite.mem_toFinset.mpr member)
  exact rare thing member _ late occurred

namespace Machine

/-- Evaluations take operands that are there, and compute words: from a state in
which no more forms are open than the limit allows and the integers of variables
are words, the evaluation of any program by position is never broken. It ends as
the evaluation does, with a value or an error, or it uses up the passes in a loop
of the program. If it does not end, one loop uses them up however many there are. -/
theorem evaluations_stay_in_bounds (memory : Memory) {limit : Nat} (word : limit < UInt64.size)
    (program : Expr) {state : State} (within : state.depth ≤ limit)
    (words : state.environment.All Value.IsWord) :
    (∀ passes breach, Attempt.evaluate memory limit passes program state ≠ .broken breach) ∧
    (∀ passes,
      (∃ ending,
        Machine.evaluate ⟨.word64, memory, limit, passes⟩ program state = some ending ∧
        Attempt.evaluate memory limit passes program state = .ended ending) ∨
      ∃ operands, program.Contains (.form Operation.whileTrue.name operands) ∧
        Machine.evaluate ⟨.word64, memory, limit, passes⟩ program state = none ∧
        Attempt.evaluate memory limit passes program state = .looping operands) ∧
    ((∃ ending, Ends .word64 memory limit program state ending) ∨
      ∃ operands, program.Contains (.form Operation.whileTrue.name operands) ∧
        ∀ enough, ∃ passes, enough ≤ passes ∧
          Attempt.evaluate memory limit passes program state = .looping operands) := by
  have follows := fun passes =>
    Attempt.follows_evaluate memory word passes program (fun _ loop => loop) state ⟨within, words⟩
  refine ⟨fun passes breach broken => ?_, fun passes => ?_, ?_⟩
  · obtain ⟨ending, _, attempted, _⟩ | ⟨operands, _, _, attempted⟩ := follows passes
    all_goals
      rw [broken] at attempted
      cases attempted
  · obtain ⟨ending, acted, attempted, _⟩ | looping := follows passes
    · exact .inl ⟨ending, acted, attempted⟩
    · exact .inr looping
  · by_contra endless
    push Not at endless
    obtain ⟨unended, unloops⟩ := endless
    have parts : {operands | program.Contains (.form Operation.whileTrue.name operands)}.Finite :=
      program.finite_parts.preimage fun _ _ _ _ same => by cases same; rfl
    have loops : ∀ passes, ∃ operands ∈
        {operands | program.Contains (.form Operation.whileTrue.name operands)},
          Attempt.evaluate memory limit passes program state = .looping operands := by
      intro passes
      obtain ⟨ending, acted, _⟩ | ⟨operands, loop, _, attempted⟩ := follows passes
      · exact absurd ⟨passes, acted⟩ (unended ending)
      · exact ⟨operands, loop, attempted⟩
    -- There are finitely many loops for the passes to be used up in.
    obtain ⟨operands, loop, again⟩ := exists_recurring parts loops
    obtain ⟨enough, rare⟩ := unloops operands loop
    obtain ⟨passes, more, attempted⟩ := again enough
    exact rare passes more attempted

/-- A loop that one pass does not suffice for ends with two, under the highest limit. -/
theorem evaluations_stay_in_bounds_two :
    let limit := 0xffffffffffffffff
    let test := Expr.form "leq" [.form "get" [.str "a"], .int 3]
    let body := Expr.form "set" [.str "a", .form "add" [.form "get" [.str "a"], .int 1]]
    let program := Expr.form "while" [test, body]
    let state : State := ⟨Environment.empty.set "a" (.int 3), .unlimited, #[], 0⟩
    (∀ passes breach, Attempt.evaluate (.below 16) limit passes program state ≠ .broken breach) ∧
    Attempt.evaluate (.below 16) limit 1 program state = .looping [test, body] ∧
    ∃ ending, Machine.evaluate ⟨.word64, .below 16, limit, 2⟩ program state = some ending ∧
      Attempt.evaluate (.below 16) limit 2 program state = .ended ending ∧
      ending.result = .ok .nothing ∧ ending.state.environment.get? "a" = some (.int 4) := by
  intro limit test body program state
  have words : state.environment.All Value.IsWord :=
    Environment.all_empty.set (show Value.IsWord (.int 3) from rfl) "a"
  have word : limit < UInt64.size := by decide
  obtain ⟨unbroken, outcomes, _⟩ :=
    evaluations_stay_in_bounds (.below 16) word program (Nat.zero_le _) words
  have unended : Machine.evaluate ⟨.word64, .below 16, limit, 1⟩ program state = none :=
    Option.isNone_iff_eq_none.mp (by decide +kernel)
  have computed : (Machine.evaluate ⟨.word64, .below 16, limit, 2⟩ program state).map
      (fun ending => (ending.result, ending.state.environment.get? "a")) =
      some (.ok .nothing, some (.int 4)) := by decide +kernel
  obtain ⟨ending, ended, facts⟩ := Option.map_eq_some_iff.mp computed
  obtain ⟨result, counted⟩ := Prod.mk.inj facts
  refine ⟨unbroken, ?_, ending, ended, ?_, result, counted⟩
  · obtain ⟨_, early, _⟩ | ⟨operands, loop, _, attempted⟩ := outcomes 1
    · rw [unended] at early
      cases early
    · have only : operands = [test, body] := by
        simpa [program, test, body, Expr.form, Operation.name] using loop
      rw [attempted, only]
  · obtain ⟨_, acted, attempted⟩ | ⟨_, _, unended, _⟩ := outcomes 2
    · cases ended.symm.trans acted
      exact attempted
    · cases ended.symm.trans unended

end Machine

end JsonForms
