import JsonForms.Eval.Evaluate
import JsonForms.Proofs.Evaluation.Parts

/-!
# Families of evaluations

Several machines evaluate one expression by actions of one shape: the actions are
a family, with one for each machine. A condition on families holds of evaluations
as soon as every combinator that evaluations are built from respects it.

`CongruentFamilyAt` lists, for one list as it is written, all that an evaluation
can do there once the list has been opened: which errors it can raise, which
variable it can look up or set, whether it can print, compute or loop. A statement
about a program is proved by giving its condition and such a structure for every
list, and the operations are gone through here once for all of them.
-/

namespace JsonForms

/-- The errors that an opened list raises itself, rather than an element that it
evaluates, given how the list is written. -/
inductive Expr.Raises : Expr → EvalError → Prop where
  | emptyList : Raises (.list []) (.malformed .emptyList)
  | head {head : Expr} {following : List Expr} (noName : head.str? = none) :
      Raises (.list (head :: following)) (.malformed (.head head))
  | unknown {name : String} {operands : List Expr} (unknown : Operation.ofName? name = none) :
      Raises (.form name operands) (.unknownOperation name)
  | arity {operation : Operation} {operands : List Expr}
      (refused : operation.arity.accepts operands.length = false) :
      Raises (.form operation.name operands)
        (.arity operation.name operation.arity operands.length)
  | variableName {operation : Operation} {target : Expr} {following : List Expr}
      (literal : operation = .get ∨ operation = .set) (noName : target.str? = none) :
      Raises (.form operation.name (target :: following))
        (.expectedLiteral operation 0 .variableName target)
  | count {operation : Operation} {count : Expr} {following : List Expr}
      (literal : operation = .repeatTimes ∨ operation = .array) (noCount : count.count? = none) :
      Raises (.form operation.name (count :: following))
        (.expectedLiteral operation 0 .count count)
  | order {operation : Operation} {left right : Expr} {leftKind rightKind : Value.Kind}
      (ordered : operation = .leq ∨ operation = .geq) :
      Raises (.form operation.name [left, right])
        (.typeMismatch (.order operation leftKind rightKind))
  | allocation {operand : Expr} {count : Nat} (counted : operand.count? = some count) :
      Raises (.form Operation.array.name [operand]) (.allocation .array count)

/-- An expression with a text is the string of that text. -/
theorem Expr.eq_str_of_str? {expr : Expr} {text : String} (found : expr.str? = some text) :
    expr = .str text := by
  cases expr <;> cases found
  rfl

/-- A condition that holds of all values which an evaluation makes by itself:
literals, truth values, nothing and arrays of empty slots. -/
structure Value.Primitive (Admits : Value → Prop) : Prop where
  int : ∀ value : Int64, Admits (.int value.toInt)
  str : ∀ text, Admits (.str text)
  bool : ∀ value, Admits (.bool value)
  slots : ∀ count, Admits (.array (List.replicate count .nothing))
  nothing : Admits .nothing

/-- A condition on families of actions, given what their values satisfy, that
sequencing respects. Actions that are run for their value have admitted values. -/
structure SequencedFamily {ι : Type} (Admits : Value → Prop)
    (Related : {α : Type} → (α → Prop) → (ι → Action α) → Prop) : Prop
    extends Value.Primitive Admits where
  pure : ∀ {α : Type} {post : α → Prop} {value : α}, post value →
    Related post fun _ => Action.pure value
  bind : ∀ {α : Type} {post : α → Prop} {first : ι → Action Value}
    {next : ι → Value → Action α}, Related Admits first →
      (∀ value, Admits value → Related post fun index => next index value) →
        Related post fun index => (first index).bind (next index)
  andThen : ∀ {α : Type} {post : α → Prop} {first : ι → Action Unit} {next : ι → Action α},
    Related (fun _ => True) first → Related post next →
      Related post fun index => (first index).bind fun _ => next index

/-- A condition on the actions of a family of machines that respects everything
which an opened list does, given how the list is written. The machines have one memory. -/
structure CongruentFamilyAt {ι : Type} (machines : ι → Machine) (expr : Expr)
    (Admits : Value → Prop) (Related : {α : Type} → (α → Prop) → (ι → Action α) → Prop) : Prop
    extends SequencedFamily Admits Related where
  sameMemory : ∃ memory, ∀ index, (machines index).memory = memory
  fail : ∀ {error}, expr.Raises error →
    Related Admits fun _ => (Action.fail error : Action Value)
  lookup : ∀ {name}, expr = .form Operation.get.name [.str name] →
    Related Admits fun _ => Action.lookup name
  assign : ∀ {name operand value}, expr = .form Operation.set.name [.str name, operand] →
    Admits value → Related (fun _ => True) fun _ => Action.assign name value
  writeLine : ∀ {operands value}, expr = .form Operation.print.name operands → Admits value →
    Related (fun _ => True) fun _ => Action.writeLine value
  abs : ∀ {operand value}, expr = .form Operation.abs.name [operand] → Admits value →
    Related Admits fun index => Action.ofExcept ((machines index).arithmetic.abs value)
  add : ∀ {first second firstValue secondValue},
    expr = .form Operation.add.name [first, second] → Admits firstValue → Admits secondValue →
      Related Admits fun index =>
        Action.ofExcept ((machines index).arithmetic.add firstValue secondValue)
  loop : ∀ {operands} {test : ι → Action Value} {body : ι → Action Unit},
    expr = .form Operation.whileTrue.name operands → Related Admits test →
      Related (fun _ => True) body →
        Related (fun _ => True) fun index =>
          Action.loop (test index) (body index) (machines index).passes

namespace Operand

/-- An operand as it is written, and its evaluations by a family of machines. -/
structure Family (ι : Type) where
  expr : Expr
  run : ι → Action Value

/-- The operand of one of the machines. -/
def Family.at {ι : Type} (family : Family ι) (index : ι) : Operand :=
  ⟨family.expr, family.run index⟩

/-- The operands of all machines are written alike. -/
@[simp]
theorem Family.map_expr_at {ι : Type} (families : List (Family ι)) (index : ι) :
    (families.map (Family.at · index)).map Operand.expr = families.map Family.expr :=
  List.map_map

/-- A name is taken from what is written, or this is blamed. -/
theorem variableName_eq (operand : Operand) (operation : Operation) (position : Nat) :
    operand.variableName operation position =
      match operand.expr.str? with
      | some name => Action.pure name
      | none => Action.fail (.expectedLiteral operation position .variableName operand.expr) := by
  obtain ⟨written, _⟩ := operand
  cases written <;> rfl

/-- A number is taken from what is written, or this is blamed. -/
theorem count_eq (operand : Operand) (operation : Operation) (position : Nat) :
    operand.count operation position =
      match operand.expr.count? with
      | some number => Action.pure number
      | none => Action.fail (.expectedLiteral operation position .count operand.expr) := by
  obtain ⟨written, _⟩ := operand
  cases written with
  | int value =>
      simp only [count, Expr.count?]
      split <;> rfl
  | str | bool | list => rfl

end Operand

/-! ## Sequences -/

namespace SequencedFamily

variable {ι : Type} {Admits : Value → Prop}
  {Related : {α : Type} → (α → Prop) → (ι → Action α) → Prop}
  (sequenced : SequencedFamily Admits Related)

include sequenced

/-- Operands that are evaluated one after another keep the condition, with the value of the last
one. -/
theorem runLast (first : Operand.Family ι) {operands : List (Operand.Family ι)}
    (related : Related Admits first.run)
    (following : ∀ operand ∈ operands, Related Admits operand.run) :
    Related Admits fun index =>
      Operand.runLast (first.at index) (operands.map (Operand.Family.at · index)) := by
  induction operands generalizing first with
  | nil => exact related
  | cons next operands inductionHypothesis =>
      refine sequenced.bind related fun _ _ => ?_
      exact inductionHypothesis next (following next (.head _)) fun operand member =>
        following operand (.tail _ member)

/-- Operands that are evaluated one after another keep the condition, whatever becomes of their
values. -/
theorem runEach {operands : List (Operand.Family ι)}
    (related : ∀ operand ∈ operands, Related Admits operand.run) :
    Related (fun _ => True) fun index =>
      Operand.runEach (operands.map (Operand.Family.at · index)) := by
  induction operands with
  | nil => exact sequenced.pure trivial
  | cons first operands inductionHypothesis =>
      refine sequenced.bind (related first (.head _)) fun _ _ => ?_
      exact inductionHypothesis fun operand member => related operand (.tail _ member)

/-- An action that is repeated keeps the condition. -/
theorem times {action : ι → Action Value} (related : Related Admits action) (count : Nat) :
    Related (fun _ => True) fun index => (action index).times count := by
  induction count with
  | zero => exact sequenced.pure trivial
  | succ count inductionHypothesis =>
      exact sequenced.bind related fun _ _ => inductionHypothesis

/-- Loops with as many passes, if actions without an ending satisfy the condition. -/
theorem loop (diverging : Related (fun _ => True) fun _ => (fun _ => none : Action Unit))
    {test : ι → Action Value} {body : ι → Action Unit} (tests : Related Admits test)
    (bodies : Related (fun _ => True) body) (passes : Nat) :
    Related (fun _ => True) fun index => Action.loop (test index) (body index) passes := by
  induction passes with
  | zero => exact diverging
  | succ passes inductionHypothesis =>
      refine sequenced.bind tests fun value _ => ?_
      cases value.isTruthy with
      | true => exact sequenced.andThen bodies inductionHypothesis
      | false => exact sequenced.pure trivial

end SequencedFamily

/-! ## Operations -/

/-- An operation that does not apply does not take so many operands. -/
theorem Operation.refuses_of_apply {machine : Machine} {operation : Operation}
    {operands : List Operand} (refused : operation.apply machine operands = none) :
    operation.arity.accepts operands.length = false := by
  rw [← Bool.not_eq_true, ← apply_isSome_iff machine, refused]
  exact Bool.false_ne_true

/-- A form whose operation does not take its operands is refused. -/
theorem Machine.perform_of_refused {machine : Machine} {operation : Operation}
    {operands : List Operand} (refused : operation.apply machine operands = none)
    (run : Action Value) :
    machine.perform (⟨.str operation.name, run⟩ :: operands) =
      Action.fail (.arity operation.name operation.arity operands.length) := by
  simp only [perform, Operation.ofName?_name, refused]

/-- A form whose operation takes its operands announces it and does what it does. -/
theorem Machine.perform_of_applied {machine : Machine} {operation : Operation}
    {operands : List Operand} {action : Action Value}
    (applied : operation.apply machine operands = some action) (run : Action Value) :
    machine.perform (⟨.str operation.name, run⟩ :: operands) =
      (Action.announce operation).bind fun _ => action := by
  simp only [perform, Operation.ofName?_name, applied]

namespace CongruentFamilyAt

variable {ι : Type} {machines : ι → Machine} {expr : Expr} {Admits : Value → Prop}
  {Related : {α : Type} → (α → Prop) → (ι → Action α) → Prop}
  (congruent : CongruentFamilyAt machines expr Admits Related)

include congruent

/-- Operands that are printed one after another keep the condition in a form that prints. -/
theorem printEach {operands : List (Operand.Family ι)} {written : List Expr}
    (form : expr = .form Operation.print.name written)
    (related : ∀ operand ∈ operands, Related Admits operand.run) :
    Related (fun _ => True) fun index =>
      Operand.printEach (operands.map (Operand.Family.at · index)) := by
  induction operands with
  | nil => exact congruent.pure trivial
  | cons first operands inductionHypothesis =>
      refine congruent.bind (related first (.head _)) fun value admitted => ?_
      refine congruent.andThen (congruent.writeLine form admitted) ?_
      exact inductionHypothesis fun operand member => related operand (.tail _ member)

/-- An operand that has to be a name is one, or the form raises the error for it. -/
theorem variableName {target : Operand.Family ι} {following : List Expr} {operation : Operation}
    {next : ι → String → Action Value} (literal : operation = .get ∨ operation = .set)
    (form : expr = .form operation.name (target.expr :: following))
    (named : ∀ name, target.expr = .str name → Related Admits fun index => next index name) :
    Related Admits fun index => ((target.at index).variableName operation 0).bind (next index) := by
  simp only [Operand.variableName_eq, Operand.Family.at]
  cases found : target.expr.str? with
  | some name => exact named name (Expr.eq_str_of_str? found)
  | none =>
      have raises : expr.Raises (.expectedLiteral operation 0 .variableName target.expr) :=
        form ▸ .variableName literal found
      exact congruent.fail raises

/-- An operand that has to be a count is one, or the form raises the error for it. -/
theorem count {operand : Operand.Family ι} {following : List Expr} {operation : Operation}
    {next : ι → Nat → Action Value} (literal : operation = .repeatTimes ∨ operation = .array)
    (form : expr = .form operation.name (operand.expr :: following))
    (counted : ∀ number, operand.expr.count? = some number →
      Related Admits fun index => next index number) :
    Related Admits fun index => ((operand.at index).count operation 0).bind (next index) := by
  simp only [Operand.count_eq, Operand.Family.at]
  cases found : operand.expr.count? with
  | some number => exact counted number found
  | none =>
      have raises : expr.Raises (.expectedLiteral operation 0 .count operand.expr) :=
        form ▸ .count literal found
      exact congruent.fail raises

/-- Two operands have an order, or the form raises the type mismatch. -/
theorem ordered {first second : Operand.Family ι} {operation : Operation}
    (holds : Ordering → Bool) (literal : operation = .leq ∨ operation = .geq)
    (form : expr = .form operation.name [first.expr, second.expr])
    (firstRelated : Related Admits first.run) (secondRelated : Related Admits second.run) :
    Related Admits fun index =>
      Operation.ordered operation holds (first.at index) (second.at index) := by
  refine congruent.bind firstRelated fun left _ => ?_
  refine congruent.bind secondRelated fun right _ => ?_
  cases left.order? right with
  | some ordering => exact congruent.pure (congruent.bool _)
  | none => exact congruent.fail (form ▸ .order literal)

/-- An array is made or refused on all machines alike, since they have one memory. -/
theorem allocate {operand : Expr} {count : Nat}
    (form : expr = .form Operation.array.name [operand]) (counted : operand.count? = some count) :
    Related Admits fun index => Operation.allocate (machines index).memory count := by
  obtain ⟨memory, same⟩ := congruent.sameMemory
  simp only [same]
  unfold Operation.allocate
  by_cases reserved : memory.reserves count
  · rw [if_pos reserved]
    exact congruent.pure (congruent.slots count)
  · rw [if_neg reserved]
    exact congruent.fail (form ▸ .allocation counted)

/-- An operation applies to the operands of every machine or of none, and its
actions satisfy the condition. -/
theorem apply (operation : Operation) {operands : List (Operand.Family ι)}
    (form : expr = .form operation.name (operands.map Operand.Family.expr))
    (related : ∀ operand ∈ operands, Related Admits operand.run) :
    (∀ index, operation.apply (machines index) (operands.map (Operand.Family.at · index)) = none) ∨
    ∃ actions, Related Admits actions ∧ ∀ index,
      operation.apply (machines index) (operands.map (Operand.Family.at · index)) =
        some (actions index) := by
  cases operation with
  | abs =>
      rcases operands with _ | ⟨operand, _ | _⟩
      case cons.nil =>
        have run := related operand (.head _)
        exact .inr ⟨_, congruent.bind run fun _ admitted => congruent.abs form admitted,
          fun _ => rfl⟩
      all_goals exact .inl fun _ => rfl
  | add =>
      rcases operands with _ | ⟨first, _ | ⟨second, _ | _⟩⟩
      case cons.cons.nil =>
        have left := related first (.head _)
        have right := related second (.tail _ (.head _))
        refine .inr ⟨_, congruent.bind left fun _ admitted => ?_, fun _ => rfl⟩
        exact congruent.bind right fun _ alsoAdmitted => congruent.add form admitted alsoAdmitted
      all_goals exact .inl fun _ => rfl
  | equal =>
      rcases operands with _ | ⟨first, _ | ⟨second, _ | _⟩⟩
      case cons.cons.nil =>
        have left := related first (.head _)
        have right := related second (.tail _ (.head _))
        refine .inr ⟨_, congruent.bind left fun _ _ => ?_, fun _ => rfl⟩
        exact congruent.bind right fun _ _ => congruent.pure (congruent.bool _)
      all_goals exact .inl fun _ => rfl
  | leq =>
      rcases operands with _ | ⟨first, _ | ⟨second, _ | _⟩⟩
      case cons.cons.nil =>
        have left := related first (.head _)
        have right := related second (.tail _ (.head _))
        exact .inr ⟨_, congruent.ordered Ordering.isLE (.inl rfl) form left right, fun _ => rfl⟩
      all_goals exact .inl fun _ => rfl
  | geq =>
      rcases operands with _ | ⟨first, _ | ⟨second, _ | _⟩⟩
      case cons.cons.nil =>
        have left := related first (.head _)
        have right := related second (.tail _ (.head _))
        exact .inr ⟨_, congruent.ordered Ordering.isGE (.inr rfl) form left right, fun _ => rfl⟩
      all_goals exact .inl fun _ => rfl
  | get =>
      rcases operands with _ | ⟨target, _ | _⟩
      case cons.nil =>
        refine .inr ⟨_, congruent.variableName (.inl rfl) form fun name written => ?_,
          fun _ => rfl⟩
        exact congruent.lookup (by rw [form, List.map_singleton, written])
      all_goals exact .inl fun _ => rfl
  | set =>
      rcases operands with _ | ⟨target, _ | ⟨operand, _ | _⟩⟩
      case cons.cons.nil =>
        have run := related operand (.tail _ (.head _))
        refine .inr ⟨_, congruent.variableName (.inr rfl) form fun name written => ?_,
          fun _ => rfl⟩
        rw [List.map_cons, List.map_singleton, written] at form
        refine congruent.bind run fun value admitted => ?_
        exact congruent.andThen (congruent.assign form admitted) (congruent.pure admitted)
      all_goals exact .inl fun _ => rfl
  | seq =>
      rcases operands with _ | ⟨first, following⟩
      case nil => exact .inl fun _ => rfl
      case cons =>
        have later : ∀ operand ∈ following, Related Admits operand.run := fun operand member =>
          related operand (.tail _ member)
        exact .inr ⟨_, congruent.runLast first (related first (.head _)) later, fun _ => rfl⟩
  | ifThen =>
      rcases operands with _ | ⟨test, _ | ⟨body, _ | ⟨otherwise, _ | _⟩⟩⟩
      case cons.cons.nil =>
        refine .inr ⟨_, congruent.bind (related test (.head _)) fun value _ => ?_, fun _ => rfl⟩
        cases value.isTruthy with
        | true => exact related body (.tail _ (.head _))
        | false => exact congruent.pure congruent.nothing
      case cons.cons.cons.nil =>
        refine .inr ⟨_, congruent.bind (related test (.head _)) fun value _ => ?_, fun _ => rfl⟩
        cases value.isTruthy with
        | true => exact related body (.tail _ (.head _))
        | false => exact related otherwise (.tail _ (.tail _ (.head _)))
      all_goals exact .inl fun _ => rfl
  | whileTrue =>
      rcases operands with _ | ⟨test, _ | ⟨first, following⟩⟩
      case cons.cons =>
        have body := congruent.runEach fun operand (member : operand ∈ first :: following) =>
          related operand (.tail _ member)
        exact .inr ⟨_, congruent.andThen (congruent.loop form (related test (.head _)) body)
          (congruent.pure congruent.nothing), fun _ => rfl⟩
      all_goals exact .inl fun _ => rfl
  | repeatTimes =>
      rcases operands with _ | ⟨count, _ | ⟨body, _ | _⟩⟩
      case cons.cons.nil =>
        have run := related body (.tail _ (.head _))
        refine .inr ⟨_, congruent.count (.inl rfl) form fun number _ => ?_, fun _ => rfl⟩
        exact congruent.andThen (congruent.times run number) (congruent.pure congruent.nothing)
      all_goals exact .inl fun _ => rfl
  | print =>
      exact .inr ⟨_, congruent.andThen (congruent.printEach form related)
        (congruent.pure congruent.nothing), fun _ => rfl⟩
  | array =>
      rcases operands with _ | ⟨count, _ | _⟩
      case cons.nil =>
        refine .inr ⟨_, congruent.count (.inr rfl) form fun number counted => ?_, fun _ => rfl⟩
        exact congruent.allocate form counted
      all_goals exact .inl fun _ => rfl

omit congruent in
variable [Nonempty ι] in
/-- An opened list is refused by every machine before anything is done, or all of
them announce its operation and go on with actions that satisfy the condition. -/
theorem perform_cases {operands : List (Operand.Family ι)}
    (congruent : CongruentFamilyAt machines (.list (operands.map Operand.Family.expr)) Admits
      Related)
    (related : ∀ operand ∈ operands, Related Admits operand.run) :
    (∃ error, (Expr.list (operands.map Operand.Family.expr)).Raises error ∧ ∀ index,
      (machines index).perform (operands.map (Operand.Family.at · index)) = Action.fail error) ∨
    ∃ operation actions, Related Admits actions ∧ ∀ index,
      (machines index).perform (operands.map (Operand.Family.at · index)) =
        (Action.announce operation).bind fun _ => actions index := by
  rcases operands with _ | ⟨⟨written, run⟩, operands⟩
  · exact .inl ⟨_, .emptyList, fun _ => rfl⟩
  cases written with
  | str name =>
      cases found : Operation.ofName? name with
      | none =>
          refine .inl ⟨_, .unknown found, fun index => ?_⟩
          simp only [List.map_cons, Operand.Family.at, Machine.perform, found]
      | some operation =>
          obtain rfl := Operation.name_of_ofName? found
          have later : ∀ operand ∈ operands, Related Admits operand.run := fun operand member =>
            related operand (.tail _ member)
          obtain refused | ⟨actions, holds, applied⟩ := congruent.apply operation rfl later
          · have arity : operation.arity.accepts (operands.map Operand.Family.expr).length =
                false := by
              obtain ⟨index⟩ := ‹Nonempty ι›
              have refuses := Operation.refuses_of_apply (refused index)
              rwa [List.length_map] at refuses ⊢
            refine .inl ⟨_, .arity arity, fun index => ?_⟩
            rw [List.length_map, ← List.length_map (Operand.Family.at · index)]
            exact Machine.perform_of_refused (refused index) _
          · refine .inr ⟨operation, actions, holds, fun index => ?_⟩
            exact Machine.perform_of_applied (applied index) _
  | int | bool | list => exact .inl ⟨_, .head rfl, fun _ => rfl⟩

omit congruent in
variable [Nonempty ι] in
/-- The actions of an opened list satisfy the condition. -/
theorem perform {operands : List (Operand.Family ι)}
    (congruent : CongruentFamilyAt machines (.list (operands.map Operand.Family.expr)) Admits
      Related)
    (announced : ∀ operation, Related (fun _ => True) fun _ => Action.announce operation)
    (related : ∀ operand ∈ operands, Related Admits operand.run) :
    Related Admits fun index =>
      (machines index).perform (operands.map (Operand.Family.at · index)) := by
  obtain ⟨error, raises, refused⟩ | ⟨operation, actions, holds, done⟩ :=
    congruent.perform_cases related
  · simp only [refused]
    exact congruent.fail raises
  · simp only [done]
    exact congruent.andThen (announced operation) holds

end CongruentFamilyAt

/-! ## Expressions -/

namespace Machine

variable {ι : Type} (machines : ι → Machine)

/-- An expression as an operand of all machines. -/
def family (expr : Expr) : Operand.Family ι :=
  ⟨expr, fun index => (machines index).evaluate expr⟩

/-- Expressions as operands of all machines are, for one machine, its operands. -/
@[simp]
theorem map_at_family (items : List Expr) (index : ι) :
    (items.map (family machines)).map (Operand.Family.at · index) =
      (machines index).operands items := by
  rw [operands_eq_map, List.map_map]
  rfl

end Machine

end JsonForms
