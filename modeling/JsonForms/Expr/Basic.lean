/-!
# Expressions

A program is one expression. Scalars stand for themselves. A list whose head is
a string is a form: the head names an operation and the other elements are its
operands, as they are written. Other lists are expressions too; that they have
no meaning is found out when they are evaluated.
-/

namespace JsonForms

/-- A program, or a part of one. -/
inductive Expr where
  | int (value : Int64)
  | str (text : String)
  | bool (value : Bool)
  | list (items : List Expr)
deriving Inhabited, Repr

namespace Expr

/-- The list that applies an operation to operands. -/
def form (operation : String) (operands : List Expr) : Expr :=
  .list (.str operation :: operands)

/-- The operation and the operands of a form. -/
def form? : Expr → Option (String × List Expr)
  | .list (.str operation :: operands) => some (operation, operands)
  | _ => none

/-- The text of a string. -/
def str? : Expr → Option String
  | .str text => some text
  | _ => none

/-- The value of an integer. -/
def int? : Expr → Option Int64
  | .int value => some value
  | _ => none

/-- What kind of expression this is, in words. -/
def kindName : Expr → String
  | .int _ => "integer"
  | .str _ => "string"
  | .bool _ => "boolean"
  | .list _ => "list"

mutual

/-- Decides whether two expressions are the same tree. -/
def decEq : (left right : Expr) → Decidable (left = right)
  | .int left, .int right =>
      if same : left = right then isTrue (by rw [same]) else isFalse (by simp [same])
  | .str left, .str right =>
      if same : left = right then isTrue (by rw [same]) else isFalse (by simp [same])
  | .bool left, .bool right =>
      if same : left = right then isTrue (by rw [same]) else isFalse (by simp [same])
  | .list left, .list right =>
      match decEqItems left right with
      | isTrue same => isTrue (by rw [same])
      | isFalse differ => isFalse (by simp [differ])
  | .int _, .str _ | .int _, .bool _ | .int _, .list _ => isFalse (by simp)
  | .str _, .int _ | .str _, .bool _ | .str _, .list _ => isFalse (by simp)
  | .bool _, .int _ | .bool _, .str _ | .bool _, .list _ => isFalse (by simp)
  | .list _, .int _ | .list _, .str _ | .list _, .bool _ => isFalse (by simp)

/-- Decides whether two lists of expressions are the same. -/
def decEqItems : (left right : List Expr) → Decidable (left = right)
  | [], [] => isTrue rfl
  | [], _ :: _ | _ :: _, [] => isFalse (by simp)
  | left :: lefts, right :: rights =>
      match decEq left right, decEqItems lefts rights with
      | isTrue sameHead, isTrue sameTail => isTrue (by rw [sameHead, sameTail])
      | isFalse differ, _ => isFalse (by simp [differ])
      | _, isFalse differ => isFalse (by simp [differ])

end

/-- Whether two expressions are the same can be decided. -/
instance : DecidableEq Expr := decEq

end Expr

end JsonForms
