import JsonForms.Program
import JsonForms.Settings

/-!
# The command line

The command runs one program and shows its value. Its arguments are one path,
and options that only show a text.
-/

namespace JsonForms.CommandLine

/-- What the arguments ask for. -/
inductive Request where
  | run (path : String)
  | help
  | version
  | misuse
deriving DecidableEq, Repr

/-- What the command leaves behind. -/
structure Transcript where
  exit : Nat
  stdout : ByteArray
  stderr : String

/-- The text shown for help. -/
def helpText : String :=
  "Runs a JSON-encoded jexp program and prints its final value.\n\n" ++
  "Usage: jexp <PROGRAM>\n\n" ++
  "Arguments:\n" ++
  "  <PROGRAM>  Path to the program: a single JSON value\n\n" ++
  "Options:\n" ++
  "  -h, --help     Print help\n" ++
  "  -V, --version  Print version\n"

/-- The text shown for the version. -/
def versionText : String := "jexp 0.1.0\n"

/-- The text shown when the arguments cannot be used. -/
def misuseText : String := "error: expected one program\n\nUsage: jexp <PROGRAM>\n"

/-- The request for a program when no argument is left. A path cannot be empty. -/
def requestOf (paths : List String) : Request :=
  match paths with
  | [path] => if path.isEmpty then .misuse else .run path
  | _ => .misuse

/-- What arguments ask for, after the path that was already given if there was
one. Arguments count in their order, so whatever is wrong is seen before an
option that comes later. After two dashes every argument is a path. -/
def request (given : Option String) : List String → Request
  | [] => requestOf given.toList
  | argument :: following =>
      match argument.toList with
      | ['-', '-'] => requestOf (given.toList ++ following)
      | '-' :: '-' :: name =>
          if name = "help".toList then .help
          else if name = "version".toList then .version
          else .misuse
      | '-' :: letter :: _ =>
          if letter = 'h' then .help else if letter = 'V' then .version else .misuse
      | [] => .misuse
      | _ =>
          match given with
          | none => request (some argument) following
          | some _ => .misuse

/-- A text with one indentation before its first line and another before the others. -/
def indent (first others text : String) : String :=
  first ++ ("\n" ++ others).intercalate ((text.toList.splitOn '\n').map String.ofList)

/-- The causes of a failure as they are shown: a single one plainly, several ones numbered. -/
def showCauses : List String → List String
  | [cause] => [indent "    " "    " cause]
  | causes =>
      causes.zipIdx.map fun (cause, index) =>
        indent ("    " ++ toString index ++ ": ") "       " cause

/-- The message of a failed run. -/
def failureText (path : String) (error : RunError) : String :=
  "\n".intercalate
    (["Error: failed to run " ++ path, "", "Caused by:"] ++ showCauses error.causes) ++ "\n"

/-- What the command leaves behind after a run. -/
def Transcript.ofRun (path : String) (run : Run) : Transcript :=
  match run.result with
  | .ok value =>
      ⟨0, run.sink.written ++ ("=> " ++ value.text ++ "\n").toByteArray, ""⟩
  | .error error => ⟨1, run.sink.written, failureText path error⟩

/-- The memory that the command counts on: a slot takes 32 bytes, and a program can
address 47 bits of bytes. -/
instance : Memory := .below 0x40000000000

/-- What the command does, given how files are read and the variable that sets the limit. -/
def perform (read : String → Except ReadError ByteArray) (limitVariable : Option String) :
    Request → Option Transcript
  | .help => some ⟨0, helpText.toByteArray, ""⟩
  | .version => some ⟨0, versionText.toByteArray, ""⟩
  | .misuse => some ⟨2, .empty, misuseText⟩
  | .run path =>
      (Run.ofContents path (read path) .unlimited (Settings.limitOf limitVariable).1).map
        (Transcript.ofRun path)

end JsonForms.CommandLine
