import JsonForms.Proofs.Evaluation.Families
import Mathlib.Data.List.Forall2

/-!
# Relations between two evaluations

Two machines evaluate one expression by actions of one shape. So a relation
between actions holds between their evaluations as soon as every combinator that
evaluations are built from respects it. A relation between two actions is a
condition on a family of two, so `CongruentAt`, which lists what is to be shown
for one list as it is written, is a case of `CongruentFamilyAt`. `Congruence` is
the case in which it does not matter what is written.
-/

namespace JsonForms

/-- A relation between actions that sequencing respects. -/
structure Sequential (Related : {α : Type} → Action α → Action α → Prop) : Prop where
  pure : ∀ {α : Type} (value : α), Related (Action.pure value) (Action.pure value)
  bind : ∀ {α β : Type} {first second : Action α} {next after : α → Action β},
    Related first second → (∀ value, Related (next value) (after value)) →
      Related (first.bind next) (second.bind after)

/-- A relation between actions, given what their values satisfy, that sequencing
respects. Actions that are run for their value have admitted values. -/
structure Sequenced (Admits : Value → Prop)
    (Related : {α : Type} → (α → Prop) → Action α → Action α → Prop) : Prop
    extends Value.Primitive Admits where
  pure : ∀ {α : Type} {post : α → Prop} {value : α}, post value →
    Related post (Action.pure value) (Action.pure value)
  bind : ∀ {α : Type} {post : α → Prop} {first second : Action Value}
    {next after : Value → Action α}, Related Admits first second →
      (∀ value, Admits value → Related post (next value) (after value)) →
        Related post (first.bind next) (second.bind after)
  andThen : ∀ {α : Type} {post : α → Prop} {first second : Action Unit} {next after : Action α},
    Related (fun _ => True) first second → Related post next after →
      Related post (first.bind fun _ => next) (second.bind fun _ => after)

/-- A relation that says nothing of values. -/
theorem Sequential.sequenced {Related : {α : Type} → Action α → Action α → Prop}
    (sequential : Sequential Related) :
    Sequenced (fun _ => True) (fun {_} _ first second => Related first second) where
  int _ := trivial
  str _ := trivial
  bool _ := trivial
  slots _ := trivial
  nothing := trivial
  pure _ := sequential.pure _
  bind related next := sequential.bind related fun value => next value trivial
  andThen related next := sequential.bind related fun _ => next

/-- A relation between the actions of two machines with one memory that respects
everything which an opened list does, given how the list is written. -/
structure CongruentAt (left right : Machine) (expr : Expr) (Admits : Value → Prop)
    (Related : {α : Type} → (α → Prop) → Action α → Action α → Prop) : Prop
    extends Sequenced Admits Related where
  sameMemory : left.memory = right.memory
  fail : ∀ {error}, expr.Raises error →
    Related Admits (Action.fail error : Action Value) (Action.fail error)
  lookup : ∀ {name}, expr = .form Operation.get.name [.str name] →
    Related Admits (Action.lookup name) (Action.lookup name)
  assign : ∀ {name operand value}, expr = .form Operation.set.name [.str name, operand] →
    Admits value → Related (fun _ => True) (Action.assign name value) (Action.assign name value)
  writeLine : ∀ {operands value}, expr = .form Operation.print.name operands → Admits value →
    Related (fun _ => True) (Action.writeLine value) (Action.writeLine value)
  abs : ∀ {operand value}, expr = .form Operation.abs.name [operand] → Admits value →
    Related Admits (Action.ofExcept (left.arithmetic.abs value))
      (Action.ofExcept (right.arithmetic.abs value))
  add : ∀ {first second firstValue secondValue},
    expr = .form Operation.add.name [first, second] → Admits firstValue → Admits secondValue →
      Related Admits (Action.ofExcept (left.arithmetic.add firstValue secondValue))
        (Action.ofExcept (right.arithmetic.add firstValue secondValue))
  loop : ∀ {operands} {test condition : Action Value} {body block : Action Unit},
    expr = .form Operation.whileTrue.name operands → Related Admits test condition →
      Related (fun _ => True) body block →
        Related (fun _ => True) (Action.loop test body left.passes)
          (Action.loop condition block right.passes)

/-- Operands that are written alike and whose evaluations are related. -/
structure Operand.Alike (Related : Action Value → Action Value → Prop)
    (left right : Operand) : Prop where
  expr : left.expr = right.expr
  run : Related left.run right.run

/-! ## Relations as conditions on families -/

/-- What belongs to one of two machines. -/
def Machine.side {α : Type} (left right : α) (second : Bool) : α :=
  bif second then right else left

/-- Operands that are alike are the operands of one family. -/
theorem Operand.exists_family {Related : Action Value → Action Value → Prop}
    {operands others : List Operand}
    (alike : List.Forall₂ (Operand.Alike Related) operands others) :
    ∃ families : List (Operand.Family Bool), families.map (Operand.Family.at · false) = operands ∧
      families.map (Operand.Family.at · true) = others ∧
        ∀ family ∈ families, Related (family.run false) (family.run true) := by
  induction alike with
  | nil => exact ⟨[], rfl, rfl, nofun⟩
  | @cons operand other _ _ first _ inductionHypothesis =>
      obtain ⟨families, rfl, rfl, related⟩ := inductionHypothesis
      obtain ⟨written, run⟩ := operand
      obtain ⟨_, otherRun⟩ := other
      cases first.expr
      refine ⟨⟨written, Machine.side run otherRun⟩ :: families, rfl, rfl, fun family member => ?_⟩
      cases member with
      | head => exact first.run
      | tail _ later => exact related family later

namespace Sequenced

variable {Admits : Value → Prop} {Related : {α : Type} → (α → Prop) → Action α → Action α → Prop}
  (sequenced : Sequenced Admits Related)

include sequenced

/-- A relation that sequencing respects is such a condition on families of two actions. -/
theorem family : SequencedFamily Admits
    (fun {_} post (actions : Bool → Action _) => Related post (actions false) (actions true)) where
  toPrimitive := sequenced.toPrimitive
  pure := sequenced.pure
  bind := sequenced.bind
  andThen := sequenced.andThen

/-- Operands that are alike have values alike when they are evaluated one after another. -/
theorem runLast {operands others : List Operand} {first other : Operand}
    (alike : first.Alike (Related Admits) other)
    (following : List.Forall₂ (Operand.Alike (Related Admits)) operands others) :
    Related Admits (Operand.runLast first operands) (Operand.runLast other others) := by
  obtain ⟨written, run⟩ := first
  obtain ⟨_, otherRun⟩ := other
  cases alike.expr
  obtain ⟨families, rfl, rfl, related⟩ := Operand.exists_family following
  exact sequenced.family.runLast ⟨written, Machine.side run otherRun⟩ alike.run related

/-- Loops with as many passes, if actions without an ending are related. -/
theorem loop (diverging : Related (fun _ => True) (fun _ => none : Action Unit) (fun _ => none))
    {test condition : Action Value} {body block : Action Unit}
    (tests : Related Admits test condition)
    (bodies : Related (fun _ => True) body block) (passes : Nat) :
    Related (fun _ => True) (Action.loop test body passes) (Action.loop condition block passes) :=
  @SequencedFamily.loop Bool _ _ sequenced.family diverging (Machine.side test condition)
    (Machine.side body block) tests bodies passes

end Sequenced

/-- Loops with as many passes are related when their tests and bodies are, if
actions without an ending are. -/
theorem Sequential.loop {Related : {α : Type} → Action α → Action α → Prop}
    (sequential : Sequential Related)
    (diverging : Related (fun _ => none : Action Unit) (fun _ => none))
    {test condition : Action Value} {body block : Action Unit}
    (tests : Related test condition) (bodies : Related body block) (passes : Nat) :
    Related (Action.loop test body passes) (Action.loop condition block passes) :=
  sequential.sequenced.loop diverging tests bodies passes

/-- A loop satisfies what its test and its body do, if an action without an ending
does and sequencing respects it. -/
theorem Sequential.always_loop {Holds : {α : Type} → Action α → Prop}
    (sequential : Sequential fun {_} first _ => Holds first)
    (diverging : Holds (fun _ => none : Action Unit)) {test : Action Value} {body : Action Unit}
    (tests : Holds test) (bodies : Holds body) (passes : Nat) :
    Holds (Action.loop test body passes) :=
  @Sequential.loop _ sequential diverging test test body body tests bodies passes

namespace CongruentAt

variable {left right : Machine} {Admits : Value → Prop}
  {Related : {α : Type} → (α → Prop) → Action α → Action α → Prop}

/-- A congruence at an expression is such a condition on the family of the two machines. -/
theorem family {expr : Expr} (congruent : CongruentAt left right expr Admits Related) :
    CongruentFamilyAt (Machine.side left right) expr Admits
      (fun {_} post actions => Related post (actions false) (actions true)) where
  toSequencedFamily := congruent.toSequenced.family
  sameMemory := ⟨left.memory, Bool.forall_bool.mpr ⟨rfl, congruent.sameMemory.symm⟩⟩
  fail := congruent.fail
  lookup := congruent.lookup
  assign := congruent.assign
  writeLine := congruent.writeLine
  abs := congruent.abs
  add := congruent.add
  loop := congruent.loop

/-- An opened list is refused on both sides before anything is done, or both
announce its operation and go on with related actions. -/
theorem perform_cases {operands others : List Operand}
    (congruent : CongruentAt left right (.list (operands.map Operand.expr)) Admits Related)
    (alike : List.Forall₂ (Operand.Alike (Related Admits)) operands others) :
    (∃ error, (Expr.list (operands.map Operand.expr)).Raises error ∧
      left.perform operands = Action.fail error ∧ right.perform others = Action.fail error) ∨
    ∃ operation action other, Related Admits action other ∧
      left.perform operands = (Action.announce operation).bind (fun _ => action) ∧
      right.perform others = (Action.announce operation).bind fun _ => other := by
  obtain ⟨families, rfl, rfl, related⟩ := Operand.exists_family alike
  rw [Operand.Family.map_expr_at] at congruent ⊢
  obtain ⟨error, raises, refused⟩ | ⟨operation, actions, holds, done⟩ :=
    congruent.family.perform_cases related
  · exact .inl ⟨error, raises, refused false, refused true⟩
  · exact .inr ⟨operation, _, _, holds, done false, done true⟩

/-- An opened list performs related actions on both sides. -/
theorem perform {operands others : List Operand}
    (congruent : CongruentAt left right (.list (operands.map Operand.expr)) Admits Related)
    (announced : ∀ operation, Related (fun _ => True) (Action.announce operation)
      (Action.announce operation))
    (alike : List.Forall₂ (Operand.Alike (Related Admits)) operands others) :
    Related Admits (left.perform operands) (right.perform others) := by
  obtain ⟨families, rfl, rfl, related⟩ := Operand.exists_family alike
  rw [Operand.Family.map_expr_at] at congruent
  exact congruent.family.perform announced related

end CongruentAt

/-- A relation between the actions of two machines with one memory that every
combinator of evaluations respects. -/
structure Congruence (left right : Machine)
    (Related : {α : Type} → Action α → Action α → Prop) : Prop extends Sequential Related where
  sameMemory : left.memory = right.memory
  fail : ∀ {α : Type} (error : EvalError),
    Related (Action.fail error : Action α) (Action.fail error)
  nested : ∀ {α : Type} {inner other : Action α}, Related inner other →
    Related (Action.nested left.limit inner) (Action.nested right.limit other)
  announce : ∀ operation, Related (Action.announce operation) (Action.announce operation)
  lookup : ∀ name, Related (Action.lookup name) (Action.lookup name)
  assign : ∀ name value, Related (Action.assign name value) (Action.assign name value)
  writeLine : ∀ value, Related (Action.writeLine value) (Action.writeLine value)
  abs : ∀ value, Related (Action.ofExcept (left.arithmetic.abs value))
    (Action.ofExcept (right.arithmetic.abs value))
  add : ∀ first second, Related (Action.ofExcept (left.arithmetic.add first second))
    (Action.ofExcept (right.arithmetic.add first second))
  loop : ∀ {test condition : Action Value} {body block : Action Unit},
    Related test condition → Related body block →
      Related (Action.loop test body left.passes) (Action.loop condition block right.passes)

namespace Congruence

variable {left right : Machine} {Related : {α : Type} → Action α → Action α → Prop}

/-- A congruence respects what opened lists do, however they are written. -/
theorem congruentAt (congruence : Congruence left right Related) (expr : Expr) :
    CongruentAt left right expr (fun _ => True)
      (fun {_} _ first second => Related first second) where
  toSequenced := congruence.toSequential.sequenced
  sameMemory := congruence.sameMemory
  fail _ := congruence.fail _
  lookup _ := congruence.lookup _
  assign _ _ := congruence.assign _ _
  writeLine _ _ := congruence.writeLine _
  abs _ _ := congruence.abs _
  add _ _ _ := congruence.add _ _
  loop _ tests bodies := congruence.loop tests bodies

/-- The evaluations of one expression are related. -/
theorem evaluate (congruence : Congruence left right Related) (expr : Expr) :
    Related (left.evaluate expr) (right.evaluate expr) := by
  induction expr using Expr.induct with
  | int value => exact congruence.pure (Value.int value.toInt)
  | str text => exact congruence.pure (Value.str text)
  | bool value => exact congruence.pure (Value.bool value)
  | list items inductionHypothesis =>
      have alike : List.Forall₂ (Operand.Alike Related) (left.operands items)
          (right.operands items) := by
        rw [Machine.operands_eq_map, Machine.operands_eq_map, List.forall₂_map_left_iff,
          List.forall₂_map_right_iff, List.forall₂_same]
        exact fun item member => ⟨rfl, inductionHypothesis item member⟩
      have opened := congruence.congruentAt (.list ((left.operands items).map Operand.expr))
      rw [Machine.evaluate_list, Machine.evaluate_list]
      exact congruence.nested (opened.perform congruence.announce alike)

end Congruence

end JsonForms
