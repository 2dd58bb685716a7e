import JsonForms.Eval.Evaluate

/-!
# Sessions

A session evaluates programs one after another against the same variables and
the same sink. An error ends the evaluation in which it arises and not the
session: variables set and bytes printed before it stay.
-/

namespace JsonForms

/-- A number of passes that no loop uses up in practice. -/
def amplePasses : Nat := 0x4000000000000000

/-- The machine for programs: words of 64 bits, a memory and a limit on open forms. -/
def Machine.standard (memory : Memory) (limit : Nat) : Machine :=
  ⟨.word64, memory, limit, amplePasses⟩

/-- Programs evaluated one after another, all with one memory. -/
structure Session where
  memory : Memory
  limit : Nat
  state : State

namespace Session

/-- A session that has not evaluated anything. -/
def start [memory : Memory] (environment : Environment) (sink : Sink) (limit : Nat) : Session :=
  ⟨memory, limit, ⟨environment, sink, #[], 0⟩⟩

/-- Evaluates a program: its result, and the session after it. -/
def evaluate (session : Session) (program : Expr) :
    Option (Except EvalError Value × Session) :=
  ((Machine.standard session.memory session.limit).evaluate program session.state).map fun ending =>
    (ending.result, { session with state := ending.state })

/-- The value of a variable. -/
def get? (session : Session) (name : String) : Option Value :=
  session.state.environment.get? name

/-- Sets a variable: the value it had before, and the session after it. -/
def set (session : Session) (name : String) (value : Value) : Option Value × Session :=
  (session.get? name,
    { session with state :=
        { session.state with environment := session.state.environment.set name value } })

/-- The session with another limit on open forms. -/
def withLimit (session : Session) (limit : Nat) : Session :=
  { session with limit := limit }

/-- The session with other variables. -/
def withEnvironment (session : Session) (environment : Environment) : Session :=
  { session with state := { session.state with environment := environment } }

end Session

/-- Evaluates one program against an environment: its result, and the environment
after it. Nothing limits what it prints. -/
def evaluateIn [Memory] (environment : Environment) (limit : Nat) (program : Expr) :
    Option (Except EvalError Value × Environment) :=
  ((Session.start environment .unlimited limit).evaluate program).map fun (result, session) =>
    (result, session.state.environment)

end JsonForms
