import JsonForms.Value.Basic
import Std.Data.ExtTreeMap

/-!
# Environments

An environment binds names to values. It is determined by its bindings alone:
in which order they were made cannot be seen.
-/

namespace JsonForms

/-- The variables of an evaluation. -/
structure Environment where
  bindings : Std.ExtTreeMap String Value

namespace Environment

/-- The environment without variables. -/
def empty : Environment := ⟨∅⟩

instance : Inhabited Environment := ⟨empty⟩

instance : EmptyCollection Environment := ⟨empty⟩

/-- The value of a variable, if it has one. -/
def get? (environment : Environment) (name : String) : Option Value :=
  environment.bindings[name]?

/-- The environment in which a variable has a new value. -/
def set (environment : Environment) (name : String) (value : Value) : Environment :=
  ⟨environment.bindings.insert name value⟩

/-- The number of variables. -/
def size (environment : Environment) : Nat := environment.bindings.size

/-- Whether there are no variables. -/
def isEmpty (environment : Environment) : Bool := environment.bindings.isEmpty

/-- The environment made by setting variables one after another. -/
def ofList (assignments : List (String × Value)) : Environment :=
  assignments.foldl (fun environment (name, value) => environment.set name value) empty

/-- Whether two environments have the same bindings can be decided. -/
instance : DecidableEq Environment := fun left right =>
  if same : left.bindings == right.bindings then
    isTrue (by cases left; cases right; simpa using same)
  else isFalse (by rintro rfl; simp at same)

/-- Environments that answer alike for every name are the same. -/
@[ext]
theorem ext {left right : Environment} (same : ∀ name, left.get? name = right.get? name) :
    left = right := by
  cases left; cases right
  simpa [get?] using Std.ExtTreeMap.ext_getElem? same

/-- No variable has a value in the empty environment. -/
@[simp]
theorem get?_empty (name : String) : empty.get? name = none := by
  simp [empty, get?]

/-- After a variable is set, it has its new value and all others have what they had. -/
theorem get?_set (environment : Environment) (name other : String) (value : Value) :
    (environment.set name value).get? other =
      if name = other then some value else environment.get? other := by
  simp [get?, set, Std.ExtTreeMap.getElem?_insert]

/-- A variable that was just set has its new value. -/
@[simp]
theorem get?_set_self (environment : Environment) (name : String) (value : Value) :
    (environment.set name value).get? name = some value := by
  simp [get?_set]

/-- Setting a variable that has a value already makes no new binding. -/
theorem size_set (environment : Environment) (name : String) (value : Value) :
    (environment.set name value).size =
      if (environment.get? name).isSome then environment.size else environment.size + 1 := by
  simp [size, set, get?, Std.ExtTreeMap.size_insert]

end Environment

end JsonForms
