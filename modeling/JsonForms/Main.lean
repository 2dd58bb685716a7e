import JsonForms.CommandLine

/-!
# The command

Reads the arguments, the variable and the file that the command line speaks of,
and writes what it leaves behind.
-/

namespace JsonForms

/-- The contents of a file of the system, or why they cannot be had. -/
def readFile (path : String) : IO (Except ReadError ByteArray) := do
  try
    return .ok (← IO.FS.readBinFile path)
  catch
    | .noFileOrDirectory .. => return .error .notFound
    | .inappropriateType file code details =>
        -- The system gives the code of an error with either sign.
        match code.toInt32.toInt.natAbs with
        | 20 => return .error .notDirectory
        | 21 => return .error .isDirectory
        | _ => return .error (.other (toString (IO.Error.inappropriateType file code details)))
    | error => return .error (.other (toString error))

/-- The contents that a request needs. -/
def contentsFor : CommandLine.Request → IO (Except ReadError ByteArray)
  | .run path => readFile path
  | _ => return .error .notFound

end JsonForms

/-- Performs the request of the arguments and ends with its exit code. -/
def main (arguments : List String) : IO UInt32 := do
  let request := JsonForms.CommandLine.request none arguments
  let contents ← JsonForms.contentsFor request
  let limitVariable ← IO.getEnv JsonForms.Settings.limitVariable
  match JsonForms.CommandLine.perform (fun _ => contents) limitVariable request with
  | none => return 1
  | some transcript =>
      (← IO.getStdout).write transcript.stdout
      IO.eprint transcript.stderr
      return transcript.exit.toUInt32
