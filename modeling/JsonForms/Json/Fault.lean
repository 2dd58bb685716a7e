import JsonForms.Text.Bytes

/-!
# Faults in a JSON text

Reading stops at the first fault. A fault keeps the text that had not been
consumed and how many bytes of it had been looked at, so the place of the fault
is known without any position being carried along while reading.
-/

namespace JsonForms.Json

/-- What can be wrong with a JSON text. -/
inductive Complaint where
  | endInValue
  | endInList
  | endInObject
  | endInString
  | expectedValue
  | expectedWord
  | expectedCommaOrBracket
  | expectedCommaOrBrace
  | expectedColon
  | keyNotString
  | trailingComma
  | trailingCharacters
  | invalidNumber
  | numberOutOfRange
  | controlCharacter
  | invalidEscape
  | loneSurrogate
  | unfinishedPair
deriving DecidableEq, Repr

/-- The wording of a complaint. -/
def Complaint.message : Complaint → String
  | endInValue => "EOF while parsing a value"
  | endInList => "EOF while parsing a list"
  | endInObject => "EOF while parsing an object"
  | endInString => "EOF while parsing a string"
  | expectedValue => "expected value"
  | expectedWord => "expected ident"
  | expectedCommaOrBracket => "expected `,` or `]`"
  | expectedCommaOrBrace => "expected `,` or `\x7d`"
  | expectedColon => "expected `:`"
  | keyNotString => "key must be a string"
  | trailingComma => "trailing comma"
  | trailingCharacters => "trailing characters"
  | invalidNumber => "invalid number"
  | numberOutOfRange => "number out of range"
  | controlCharacter => "control character (\\u0000-\\u001F) found while parsing a string"
  | invalidEscape => "invalid escape"
  | loneSurrogate => "lone leading surrogate in hex escape"
  | unfinishedPair => "unexpected end of hex escape"

/-- A complaint, the text not consumed when it arose, and the number of bytes of
that text that had been looked at. -/
structure Fault where
  complaint : Complaint
  rest : List Char
  ahead : Nat
deriving DecidableEq, Repr

/-- The number of bytes of the whole text that had been looked at. -/
def Fault.looked (fault : Fault) (text : List Char) : Nat :=
  let size := Text.byteCount text
  min size (size - Text.byteCount fault.rest + fault.ahead)

end JsonForms.Json
