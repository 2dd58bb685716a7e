import JsonForms.Directory
import JsonForms.Expr.Decode
import JsonForms.Log
import JsonForms.Session

/-!
# Running programs

A run decodes a source and evaluates it from an empty environment. It has a
result, what was printed, and a log of what was done.
-/

namespace JsonForms

/-- Why a program gives no value. -/
inductive RunError where
  | unread (path : String) (cause : ReadError)
  | decode (error : DecodeError)
  | eval (error : EvalError)

/-- The message of an error and of what caused it, the error itself first. -/
def RunError.causes : RunError → List String
  | .unread path cause => ["failed to read " ++ path, cause.message]
  | .decode error => [error.message]
  | .eval (.output refusal) => [(EvalError.output refusal).message, refusal.message]
  | .eval error => [error.message]

/-- The message of an error. -/
def RunError.message : RunError → String
  | .unread path _ => "failed to read " ++ path
  | .decode error => error.message
  | .eval error => error.message

/-- What became of a program: its value or why it has none, the sink it printed
to, and the log. -/
structure Run where
  result : Except RunError Value
  sink : Sink
  log : List Log.Record

namespace Run

/-- A run that ended before anything was decoded. -/
def failed (error : RunError) (sink : Sink) : Run := ⟨.error error, sink, []⟩

/-- Runs the program of a source. -/
def ofSource [Memory] (source : Source) (sink : Sink) (limit : Nat) : Option Run :=
  match source.decode with
  | .error error => some (failed (.decode error) sink)
  | .ok program =>
      let begun := [Log.decoded source.name, Log.ready Operation.all.length]
      ((Session.start .empty sink limit).evaluate program).map fun (result, session) =>
        let reported := begun ++ session.state.events.toList.map Log.ofEvent
        match result with
        | .error error => ⟨.error (.eval error), session.state.sink, reported⟩
        | .ok value =>
            ⟨.ok value, session.state.sink,
              reported ++ [Log.finished value session.state.environment]⟩

/-- Runs the program of a file, given what came of reading it. The program is
named by the path of the file. -/
def ofContents [Memory] (path : String) (contents : Except ReadError ByteArray) (sink : Sink)
    (limit : Nat) : Option Run :=
  match contents with
  | .error cause => some (failed (.unread path cause) sink)
  | .ok bytes =>
      match String.fromUTF8? bytes with
      | none => some (failed (.unread path .notText) sink)
      | some text => ofSource ⟨path, text⟩ sink limit

end Run

end JsonForms
