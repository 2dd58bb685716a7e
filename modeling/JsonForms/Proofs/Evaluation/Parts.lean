import JsonForms.Expr.Basic
import JsonForms.Operation.Basic

/-!
# Parts of expressions

What is said about an evaluation is often said about forms that are written
somewhere in its program. `Contains` is that relation; it looks into all lists,
whether they are evaluated or not, and so do `Reads`, `Sets`, `Prints` and `Loops`.
`nesting` counts how many lists lie in each other, and `induct` is the induction
that both follow.
-/

namespace JsonForms.Expr

/-- Induction over expressions: a list may use what holds of its elements. -/
@[elab_as_elim]
theorem induct {motive : Expr → Prop} (int : ∀ value, motive (.int value))
    (str : ∀ text, motive (.str text)) (bool : ∀ value, motive (.bool value))
    (list : ∀ items, (∀ item ∈ items, motive item) → motive (.list items)) :
    ∀ expr, motive expr
  | .int value => int value
  | .str text => str text
  | .bool value => bool value
  | .list items => list items fun item _ => induct int str bool list item

/-- The first expression is the second one, or has it somewhere inside. -/
inductive Contains : Expr → Expr → Prop where
  | self (expr : Expr) : Contains expr expr
  | inside {items : List Expr} {item part : Expr} (member : item ∈ items)
      (contains : item.Contains part) : Contains (.list items) part

/-- The parts of a list are the list and the parts of its elements. -/
@[simp]
theorem contains_list_iff {items : List Expr} {part : Expr} :
    (Expr.list items).Contains part ↔
      part = .list items ∨ ∃ item ∈ items, item.Contains part := by
  constructor
  · intro contains
    cases contains with
    | self => exact .inl rfl
    | inside member contains => exact .inr ⟨_, member, contains⟩
  · rintro (rfl | ⟨item, member, contains⟩)
    · exact .self _
    · exact .inside member contains

/-- The only part of an integer is the integer. -/
@[simp]
theorem contains_int_iff {value : Int64} {part : Expr} :
    (Expr.int value).Contains part ↔ part = .int value :=
  ⟨fun contains => by cases contains; rfl, fun same => same ▸ .self _⟩

/-- The only part of a string is the string. -/
@[simp]
theorem contains_str_iff {text : String} {part : Expr} :
    (Expr.str text).Contains part ↔ part = .str text :=
  ⟨fun contains => by cases contains; rfl, fun same => same ▸ .self _⟩

/-- The only part of a truth value is the truth value. -/
@[simp]
theorem contains_bool_iff {value : Bool} {part : Expr} :
    (Expr.bool value).Contains part ↔ part = .bool value :=
  ⟨fun contains => by cases contains; rfl, fun same => same ▸ .self _⟩

/-- A form that reads the variable is written in the program. -/
def Reads (program : Expr) (name : String) : Prop :=
  program.Contains (.form Operation.get.name [.str name])

/-- A form that sets the variable is written in the program. -/
def Sets (program : Expr) (name : String) : Prop :=
  ∃ operand, program.Contains (.form Operation.set.name [.str name, operand])

/-- A form that prints is written in the program. -/
def Prints (program : Expr) : Prop :=
  ∃ operands, program.Contains (.form Operation.print.name operands)

/-- A form that runs as long as its test is truthy is written in the program. -/
def Loops (program : Expr) : Prop :=
  ∃ operands, program.Contains (.form Operation.whileTrue.name operands)

/-- A number of times or of slots, if that is what is written. -/
def count? : Expr → Option Nat
  | .int value => if 0 ≤ value.toInt then some value.toInt.toNat else none
  | _ => none

mutual

/-- How many lists lie in each other at most. -/
def nesting : Expr → Nat
  | .int _ | .str _ | .bool _ => 0
  | .list items => nestingItems items + 1

/-- How many lists lie in each other at most in one of the expressions. -/
def nestingItems : List Expr → Nat
  | [] => 0
  | expr :: following => max expr.nesting (nestingItems following)

end

/-- Fewer lists lie in each other in an element than in the list. -/
theorem nesting_lt_of_mem {item : Expr} {items : List Expr} (member : item ∈ items) :
    item.nesting < (Expr.list items).nesting := by
  rw [nesting, Nat.lt_succ_iff]
  induction items with
  | nil => cases member
  | cons first following inductionHypothesis =>
      rw [nestingItems]
      cases member with
      | head => exact Nat.le_max_left _ _
      | tail _ later => exact Nat.le_trans (inductionHypothesis later) (Nat.le_max_right _ _)

end JsonForms.Expr
