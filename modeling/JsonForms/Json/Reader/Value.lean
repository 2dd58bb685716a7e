import JsonForms.Json.Reader.Number
import JsonForms.Json.Reader.Quoted

/-!
# Reading values

A JSON text is one value with spaces around it. Values nest to any depth. Every
reader takes its input from the front and is done when a shorter rest is left.
-/

namespace JsonForms.Json

/-- Reads the letters of a word that are still missing and returns its value. -/
def readWord {bound : Nat} (value : Json) (word : List Char) (input : List Char)
    (fits : input.length < bound) : Reading Json bound :=
  match word, input with
  | [], rest => .ok ⟨value, rest, fits⟩
  | _ :: _, [] => .error ⟨.endInValue, [], 0⟩
  | letter :: letters, character :: following =>
      if character = letter then
        readWord value letters following (by simp at fits; omega)
      else .error ⟨.expectedWord, character :: following, 1⟩

/-- Reads a key, after its opening quote, and the colon after it. -/
def readKey (input : List Char) : Reading String input.length :=
  match readQuoted [] input (Nat.le_refl _) with
  | .error fault => .error fault
  | .ok ⟨key, afterKey, shorter⟩ =>
      match nextVisible afterKey (Nat.le_refl _) with
      | none => .error ⟨.endInObject, [], 0⟩
      | some ⟨character, rest, shorterRest⟩ =>
          if character = ':' then .ok ⟨key, rest, by omega⟩
          else .error ⟨.expectedColon, character :: rest, 1⟩

mutual

/-- Reads a value and the spaces before it. -/
def readValue (input : List Char) : Reading Json input.length :=
  match nextVisible input (Nat.le_refl _) with
  | none => .error ⟨.endInValue, [], 0⟩
  | some ⟨'n', rest, shorter⟩ => readWord .null ['u', 'l', 'l'] rest shorter
  | some ⟨'t', rest, shorter⟩ => readWord (.bool true) ['r', 'u', 'e'] rest shorter
  | some ⟨'f', rest, shorter⟩ => readWord (.bool false) ['a', 'l', 's', 'e'] rest shorter
  | some ⟨'"', rest, shorter⟩ =>
      (readQuoted [] rest (Nat.le_of_lt shorter)).map (Progress.map .string)
  | some ⟨'-', rest, shorter⟩ =>
      (readNumber true rest).map fun progress =>
        (progress.map .number).widen (Nat.le_of_lt shorter)
  | some ⟨'[', rest, shorter⟩ =>
      match nextVisible rest (Nat.le_refl _) with
      | none => .error ⟨.endInList, [], 0⟩
      | some ⟨']', afterList, shorterList⟩ => .ok ⟨.array [], afterList, by omega⟩
      | some _ =>
          match readValue rest with
          | .error fault => .error fault
          | .ok ⟨item, afterItem, shorterItem⟩ =>
              (readItems input.length [item] afterItem (by omega)).map
                (Progress.map .array)
  | some ⟨'{', rest, shorter⟩ =>
      match nextVisible rest (Nat.le_refl _) with
      | none => .error ⟨.endInObject, [], 0⟩
      | some ⟨'}', afterObject, shorterObject⟩ => .ok ⟨.object [], afterObject, by omega⟩
      | some ⟨'"', afterQuote, shorterQuote⟩ =>
          (readMembers input.length [] afterQuote (by omega)).map
            (Progress.map .object)
      | some ⟨character, afterCharacter, _⟩ =>
          .error ⟨.keyNotString, character :: afterCharacter, 1⟩
  | some ⟨character, rest, shorter⟩ =>
      if character.isDigit then
        (readNumber false (character :: rest)).map fun progress =>
          (progress.map .number).widen shorter
      else .error ⟨.expectedValue, character :: rest, 1⟩
termination_by input.length

/-- Reads what follows an item of a list, after the items already read, which
are given in reverse. -/
def readItems (bound : Nat) (reversed : List Json) (input : List Char)
    (fits : input.length ≤ bound) : Reading (List Json) bound :=
  match nextVisible input (Nat.le_refl _) with
  | none => .error ⟨.endInList, [], 0⟩
  | some ⟨']', rest, shorter⟩ => .ok ⟨reversed.reverse, rest, by omega⟩
  | some ⟨',', rest, shorter⟩ =>
      match nextVisible rest (Nat.le_refl _) with
      | some ⟨']', afterList, _⟩ => .error ⟨.trailingComma, ']' :: afterList, 1⟩
      | _ =>
          match readValue rest with
          | .error fault => .error fault
          | .ok ⟨item, afterItem, shorterItem⟩ =>
              readItems bound (item :: reversed) afterItem (by omega)
  | some ⟨character, rest, _⟩ => .error ⟨.expectedCommaOrBracket, character :: rest, 1⟩
termination_by input.length

/-- Reads a member of an object, after the opening quote of its key, and what
follows it. The members already read are given in reverse. -/
def readMembers (bound : Nat) (reversed : List (String × Json)) (input : List Char)
    (fits : input.length ≤ bound) : Reading (List (String × Json)) bound :=
  match readKey input with
  | .error fault => .error fault
  | .ok ⟨key, afterKey, shorterKey⟩ =>
      match readValue afterKey with
      | .error fault => .error fault
      | .ok ⟨value, afterValue, shorterValue⟩ =>
          match nextVisible afterValue (Nat.le_refl _) with
          | none => .error ⟨.endInObject, [], 0⟩
          | some ⟨'}', rest, shorter⟩ => .ok ⟨((key, value) :: reversed).reverse, rest, by omega⟩
          | some ⟨',', rest, shorter⟩ =>
              match nextVisible rest (Nat.le_refl _) with
              | none => .error ⟨.endInValue, [], 0⟩
              | some ⟨'"', afterQuote, shorterQuote⟩ =>
                  readMembers bound ((key, value) :: reversed) afterQuote (by omega)
              | some ⟨'}', afterObject, _⟩ => .error ⟨.trailingComma, '}' :: afterObject, 1⟩
              | some ⟨character, afterCharacter, _⟩ =>
                  .error ⟨.keyNotString, character :: afterCharacter, 1⟩
          | some ⟨character, rest, _⟩ => .error ⟨.expectedCommaOrBrace, character :: rest, 1⟩
termination_by input.length

end

/-- Reads a whole text: one value and nothing after it. -/
def read (text : List Char) : Except Fault Json :=
  match readValue text with
  | .error fault => .error fault
  | .ok ⟨value, rest, _⟩ =>
      match nextVisible rest (Nat.le_refl _) with
      | none => .ok value
      | some ⟨character, following, _⟩ => .error ⟨.trailingCharacters, character :: following, 1⟩

end JsonForms.Json
