import JsonForms.Expr.Basic
import JsonForms.Json.Reader.Value
import JsonForms.Source.Basic
import JsonForms.Source.Excerpt
import JsonForms.Source.Position

/-!
# Decoding programs

A program text is read as JSON first and as a whole, so a fault in the text is
reported before anything that is fine as JSON and means nothing in a program:
null, objects, and numbers that are not 64-bit integers. Of several such values
the first one in the text is reported.
-/

namespace JsonForms

/-- A JSON value that has no meaning in a program. -/
inductive Refusal where
  | number (value : Json.Number)
  | null
  | object

/-- What is said of a refused value. -/
def Refusal.message : Refusal → String
  | .number value =>
      "unsupported number " ++ value.text ++ ": only 64-bit integers are allowed"
  | .null => "unsupported JSON value: null cannot appear in a program"
  | .object => "unsupported JSON value: object cannot appear in a program"

/-- The 64-bit integer that a number is, if it is one. -/
def Json.Number.word? : Json.Number → Option Int64
  | .integer value =>
      if -0x8000000000000000 ≤ value ∧ value < 0x8000000000000000 then
        some (Int64.ofInt value)
      else none
  | .double _ => none

namespace Expr

mutual

/-- The expression that a JSON value stands for. An object is refused as a
whole, whatever it holds. -/
def ofJson : Json → Except Refusal Expr
  | .null => .error .null
  | .bool value => .ok (.bool value)
  | .number value =>
      match value.word? with
      | some word => .ok (.int word)
      | none => .error (.number value)
  | .string text => .ok (.str text)
  | .array items => (ofItems [] items).map .list
  | .object _ => .error .object

/-- The expressions that the items of a list stand for, after those already
converted, which are given in reverse. -/
def ofItems (reversed : List Expr) : List Json → Except Refusal (List Expr)
  | [] => .ok reversed.reverse
  | item :: following =>
      match ofJson item with
      | .error refusal => .error refusal
      | .ok expr => ofItems (expr :: reversed) following

end

end Expr

/-- Why a source is no program. A fault in the text is given with the name of
the source, the place and the line around it. -/
inductive DecodeError where
  | unreadable (name : String) (position : Position) (complaint : Json.Complaint)
      (excerpt : String)
  | refused (refusal : Refusal)

/-- The message of a decoding error. -/
def DecodeError.message : DecodeError → String
  | .unreadable name position complaint excerpt =>
      name ++ ":" ++ position.text ++ ": invalid JSON: " ++ complaint.message ++
        "\n  | " ++ excerpt
  | .refused refusal => refusal.message

namespace Source

/-- The error for a fault in the text of a source. The place is that after the
last byte looked at. The excerpt is taken around its column from the line whose
number is told, which is another line when the number of its own is too great. -/
def unreadable (source : Source) (fault : Json.Fault) : DecodeError :=
  let characters := source.text.toList
  let place := Position.start.advance (fault.looked characters) characters
  let position := place.clamped
  let line := (lineOf position.line characters).getD []
  .unreadable source.name position fault.complaint
    (String.ofList (Excerpt.around line place.column))

/-- The program that a source holds. -/
def decode (source : Source) : Except DecodeError Expr :=
  match Json.read source.text.toList with
  | .error fault => .error (source.unreadable fault)
  | .ok json =>
      match Expr.ofJson json with
      | .error refusal => .error (.refused refusal)
      | .ok expr => .ok expr

end Source

end JsonForms
