import JsonForms.Eval.Action

/-!
# The log

What a run reports about itself. Records have a level, a message and named
fields, all of whose values are texts.
-/

namespace JsonForms.Log

/-- How important a record is. -/
inductive Level where
  | trace
  | debug
  | warn
deriving DecidableEq, Repr

/-- A record of the log. -/
structure Record where
  level : Level
  message : String
  fields : List (String × String)
deriving DecidableEq, Repr

/-- The record of a program that could be decoded. -/
def decoded (name : String) : Record :=
  ⟨.debug, "program decoded", [("file", name)]⟩

/-- The record of the operations that programs can use. -/
def ready (operations : Nat) : Record :=
  ⟨.trace, "registry ready", [("operations", toString operations)]⟩

/-- The record of something an evaluation reports. -/
def ofEvent : Event → Record
  | .dispatch operation depth =>
      ⟨.trace, "dispatch", [("op", operation.name), ("depth", toString depth)]⟩
  | .set name value => ⟨.debug, "set", [("name", name), ("value", value.text)]⟩

/-- The record of an evaluation that gave a value. -/
def finished (value : Value) (environment : Environment) : Record :=
  ⟨.debug, "evaluation finished",
    [("value", value.text), ("bindings", toString environment.size)]⟩

end JsonForms.Log
