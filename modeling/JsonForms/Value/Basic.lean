/-!
# Values

What expressions evaluate to. Integers are mathematical integers; which of them
an evaluation may compute is for its arithmetic to say. Two values are equal
when they are of one kind and have the same content.
-/

namespace JsonForms

/-- The result of an evaluation. The slots of an array are fixed in number, and
nothing is the result of what is done for its effect. -/
inductive Value where
  | int (value : Int)
  | str (text : String)
  | bool (value : Bool)
  | array (slots : List Value)
  | nothing
deriving Inhabited, Repr

namespace Value

/-- The kinds of values. -/
inductive Kind where
  | integer
  | string
  | boolean
  | array
  | nothing
deriving DecidableEq, Repr

/-- The word for a kind. -/
def Kind.name : Kind → String
  | .integer => "integer"
  | .string => "string"
  | .boolean => "boolean"
  | .array => "array"
  | .nothing => "nothing"

/-- The kind of a value. -/
def kind : Value → Kind
  | .int _ => .integer
  | .str _ => .string
  | .bool _ => .boolean
  | .array _ => .array
  | .nothing => .nothing

/-- Whether a value counts as true. Zero, false and nothing do not. -/
def isTruthy : Value → Bool
  | .int value => value ≠ 0
  | .bool value => value
  | .nothing => false
  | .str _ | .array _ => true

/-- How two values are ordered: integers by number, strings by code points.
Other pairs have no order. -/
def order? : Value → Value → Option Ordering
  | .int left, .int right => some (compare left right)
  | .str left, .str right => some (compare left right)
  | _, _ => none

mutual

/-- Decides whether two values are equal. -/
def decEq : (left right : Value) → Decidable (left = right)
  | .int left, .int right =>
      if same : left = right then isTrue (by rw [same]) else isFalse (by simp [same])
  | .str left, .str right =>
      if same : left = right then isTrue (by rw [same]) else isFalse (by simp [same])
  | .bool left, .bool right =>
      if same : left = right then isTrue (by rw [same]) else isFalse (by simp [same])
  | .nothing, .nothing => isTrue rfl
  | .array left, .array right =>
      match decEqSlots left right with
      | isTrue same => isTrue (by rw [same])
      | isFalse differ => isFalse (by simp [differ])
  | .int _, .str _ | .int _, .bool _ | .int _, .array _ | .int _, .nothing => isFalse (by simp)
  | .str _, .int _ | .str _, .bool _ | .str _, .array _ | .str _, .nothing => isFalse (by simp)
  | .bool _, .int _ | .bool _, .str _ | .bool _, .array _ | .bool _, .nothing =>
      isFalse (by simp)
  | .array _, .int _ | .array _, .str _ | .array _, .bool _ | .array _, .nothing =>
      isFalse (by simp)
  | .nothing, .int _ | .nothing, .str _ | .nothing, .bool _ | .nothing, .array _ =>
      isFalse (by simp)

/-- Decides whether two lists of slots are equal. -/
def decEqSlots : (left right : List Value) → Decidable (left = right)
  | [], [] => isTrue rfl
  | [], _ :: _ | _ :: _, [] => isFalse (by simp)
  | left :: lefts, right :: rights =>
      match decEq left right with
      | isFalse differ => isFalse (by simp [differ])
      | isTrue sameHead =>
          match decEqSlots lefts rights with
          | isTrue sameTail => isTrue (by rw [sameHead, sameTail])
          | isFalse differ => isFalse (by simp [differ])

end

/-- Whether two values are the same can be decided. -/
instance : DecidableEq Value := decEq

end Value

end JsonForms
