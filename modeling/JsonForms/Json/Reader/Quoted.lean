import JsonForms.Json.Reader.Progress

/-!
# Reading strings

A string ends at the first quote that no backslash escapes. An escape by number
stands for one 16-bit unit; a character beyond the first 65536 is written as a
pair of surrogate units, and a surrogate outside such a pair is a fault.
-/

namespace JsonForms.Json

/-- The value of a hexadecimal digit of either case. -/
def hexValue? (digit : Char) : Option Nat :=
  if '0' ≤ digit ∧ digit ≤ '9' then some (digit.toNat - '0'.toNat)
  else if 'a' ≤ digit ∧ digit ≤ 'f' then some (digit.toNat - 'a'.toNat + 10)
  else if 'A' ≤ digit ∧ digit ≤ 'F' then some (digit.toNat - 'A'.toNat + 10)
  else none

/-- The number that four hexadecimal digits stand for. -/
def unitValue? (a b c d : Char) : Option Nat :=
  match hexValue? a, hexValue? b, hexValue? c, hexValue? d with
  | some a, some b, some c, some d => some (((a * 16 + b) * 16 + c) * 16 + d)
  | _, _, _, _ => none

/-- Reads four hexadecimal digits. The next four bytes are looked at as one. -/
def readUnit (input : List Char) : Reading Nat input.length :=
  let fault : Fault :=
    if Text.byteCount (input.take 4) < 4 then ⟨.endInString, [], 0⟩
    else ⟨.invalidEscape, input, 4⟩
  match input with
  | a :: b :: c :: d :: following =>
      match unitValue? a b c d with
      | some unit => .ok ⟨unit, following, by simp; omega⟩
      | none => .error fault
  | _ => .error fault

/-- Whether a unit is the first of a surrogate pair. -/
def isLeading (unit : Nat) : Bool := 0xD800 ≤ unit && unit ≤ 0xDBFF

/-- Whether a unit is the second of a surrogate pair. -/
def isTrailing (unit : Nat) : Bool := 0xDC00 ≤ unit && unit ≤ 0xDFFF

/-- The character of a surrogate pair. -/
def pairCharacter (leading trailing : Nat) : Char :=
  Char.ofNat (0x10000 + (leading - 0xD800) * 0x400 + (trailing - 0xDC00))

/-- Reads the second half of a surrogate pair: an escape of a trailing unit. -/
def readTrailing (leading : Nat) (input : List Char) : Reading Char input.length :=
  match input with
  | [] => .error ⟨.endInString, [], 0⟩
  | '\\' :: [] => .error ⟨.endInString, [], 0⟩
  | '\\' :: 'u' :: digits =>
      match readUnit digits with
      | .error fault => .error fault
      | .ok ⟨trailing, rest, shorter⟩ =>
          if isTrailing trailing then
            .ok ⟨pairCharacter leading trailing, rest, by simp; omega⟩
          else .error ⟨.loneSurrogate, rest, 0⟩
  | '\\' :: rest => .error ⟨.unfinishedPair, rest, 1⟩
  | rest => .error ⟨.unfinishedPair, rest, 1⟩

/-- Reads the character of an escape by number, after the letter that opens it. -/
def readNumbered (input : List Char) : Reading Char input.length :=
  match readUnit input with
  | .error fault => .error fault
  | .ok ⟨unit, rest, shorter⟩ =>
      if isTrailing unit then .error ⟨.loneSurrogate, rest, 0⟩
      else if isLeading unit then
        (readTrailing unit rest).map (Progress.widen (Nat.le_of_lt shorter))
      else .ok ⟨Char.ofNat unit, rest, shorter⟩

/-- The character that a letter stands for after a backslash. -/
def shortEscape? : Char → Option Char
  | '"' => some '"'
  | '\\' => some '\\'
  | '/' => some '/'
  | 'b' => some '\x08'
  | 'f' => some '\x0c'
  | 'n' => some '\n'
  | 'r' => some '\r'
  | 't' => some '\t'
  | _ => none

/-- Reads the character of an escape, after the backslash. -/
def readEscape (input : List Char) : Reading Char input.length :=
  match input with
  | [] => .error ⟨.endInString, [], 0⟩
  | 'u' :: digits => (readNumbered digits).map (Progress.widen (by simp))
  | letter :: following =>
      match shortEscape? letter with
      | some character => .ok ⟨character, following, by simp⟩
      | none => .error ⟨.invalidEscape, letter :: following, 1⟩

/-- Reads the rest of a string up to its closing quote, after the characters
already read, which are given in reverse. -/
def readQuoted {bound : Nat} (reversed : List Char) (input : List Char)
    (fits : input.length ≤ bound) : Reading String bound :=
  match input with
  | [] => .error ⟨.endInString, [], 0⟩
  | '"' :: following => .ok ⟨String.ofList reversed.reverse, following, by simp at fits; omega⟩
  | '\\' :: following =>
      match readEscape following with
      | .error fault => .error fault
      | .ok ⟨character, rest, shorter⟩ =>
          readQuoted (character :: reversed) rest (by simp at fits; omega)
  | character :: following =>
      if character < ' ' then .error ⟨.controlCharacter, character :: following, 1⟩
      else readQuoted (character :: reversed) following (by simp at fits; omega)
termination_by input.length

end JsonForms.Json
