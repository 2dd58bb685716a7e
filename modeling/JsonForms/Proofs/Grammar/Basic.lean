import JsonForms.Expr.Basic

/-!
# The grammar of programs

The texts that are programs, and the expression that each of them means. The
relations are authoritative: they say nothing of reading order, look-ahead or
faults, and share no definition with the readers. `Grammar.Value` relates one
value to its meaning, `Grammar.Padded` admits spaces on both sides of it, and a
whole program is a padded value.

Fractions, exponents, null and objects have no production.
-/

namespace JsonForms.Grammar

/-- Any number of the four characters that may stand around a token. -/
def Blank (text : List Char) : Prop :=
  ∀ character ∈ text, character ∈ [' ', '\n', '\t', '\r']

/-! ## Integers -/

/-- A decimal digit and its value. -/
def Digit (digit : Char) (value : Nat) : Prop :=
  ['0', '1', '2', '3', '4', '5', '6', '7', '8', '9'][value]? = some digit

/-- A run of one or more digits and the number it stands for. -/
inductive Digits : List Char → Nat → Prop where
  | one {digit value} (last : Digit digit value) : Digits [digit] value
  | snoc {front number digit value} (prior : Digits front number) (last : Digit digit value) :
      Digits (front ++ [digit]) (number * 10 + value)

/-- A numeral: zero alone, or a run of digits that does not begin with zero. -/
inductive Natural : List Char → Nat → Prop where
  | zero : Natural ['0'] 0
  | positive {first following number} (digits : Digits (first :: following) number)
      (leading : first ≠ '0') : Natural (first :: following) number

/-- An integer literal. There is no negative zero. -/
inductive Integer : List Char → Int → Prop where
  | unsigned {text number} (numeral : Natural text number) : Integer text number
  | negative {text number} (numeral : Natural text number) (nonzero : number ≠ 0) :
      Integer ('-' :: text) (-number)

/-! ## Strings -/

/-- The letters that may follow a backslash, and the characters they stand for. -/
def shortEscapes : List (Char × Char) :=
  [('"', '"'), ('\\', '\\'), ('/', '/'), ('b', '\x08'), ('f', '\x0c'), ('n', '\n'),
    ('r', '\r'), ('t', '\t')]

/-- A hexadecimal digit of either case and its value. -/
def HexDigit (digit : Char) (value : Nat) : Prop :=
  "0123456789abcdef".toList[value]? = some digit ∨
    "0123456789ABCDEF".toList[value]? = some digit

/-- Four hexadecimal digits and the 16-bit unit they stand for. -/
inductive CodeUnit : List Char → Nat → Prop where
  | mk {a b c d first second third fourth} (one : HexDigit a first) (two : HexDigit b second)
      (three : HexDigit c third) (four : HexDigit d fourth) :
      CodeUnit [a, b, c, d] (first * 0x1000 + second * 0x100 + third * 0x10 + fourth)

/-- The ways to write one character of a string. Surrogate units are no
characters, so they occur in pairs alone. -/
inductive Spelled : List Char → Char → Prop where
  | raw {character} (printable : 0x20 ≤ character.toNat) (notQuote : character ≠ '"')
      (notBackslash : character ≠ '\\') : Spelled [character] character
  | short {letter character} (listed : (letter, character) ∈ shortEscapes) :
      Spelled ['\\', letter] character
  | unit {digits character} (code : CodeUnit digits character.toNat) :
      Spelled ('\\' :: 'u' :: digits) character
  | pair {front back leading trailing character} (first : CodeUnit front leading)
      (isLeading : 0xD800 ≤ leading ∧ leading ≤ 0xDBFF) (second : CodeUnit back trailing)
      (isTrailing : 0xDC00 ≤ trailing ∧ trailing ≤ 0xDFFF)
      (code : character.toNat =
        0x10000 + (leading - 0xD800) * 0x400 + (trailing - 0xDC00)) :
      Spelled ('\\' :: 'u' :: (front ++ '\\' :: 'u' :: back)) character

/-- The inside of a string and the characters it denotes. -/
inductive Characters : List Char → List Char → Prop where
  | nil : Characters [] []
  | cons {front character back characters} (head : Spelled front character)
      (tail : Characters back characters) : Characters (front ++ back) (character :: characters)

/-! ## Values -/

mutual

/-- A value without spaces around it, and the expression it means. -/
inductive Value : List Char → Expr → Prop where
  | true : Value ['t', 'r', 'u', 'e'] (.bool true)
  | false : Value ['f', 'a', 'l', 's', 'e'] (.bool false)
  | int {text value} (literal : Integer text value) (least : -0x8000000000000000 ≤ value)
      (greatest : value ≤ 0x7FFFFFFFFFFFFFFF) : Value text (.int (Int64.ofInt value))
  | str {body characters} (inside : Characters body characters) :
      Value ('"' :: body ++ ['"']) (.str (String.ofList characters))
  | empty {inside} (blank : Blank inside) : Value ('[' :: inside ++ [']']) (.list [])
  | list {inside items} (separated : Items inside items) :
      Value ('[' :: inside ++ [']']) (.list items)

/-- A value with spaces around it. -/
inductive Padded : List Char → Expr → Prop where
  | pad {before text after expr} (front : Blank before) (value : Value text expr)
      (back : Blank after) : Padded (before ++ text ++ after) expr

/-- One or more padded values with commas between them. -/
inductive Items : List Char → List Expr → Prop where
  | last {text item} (value : Padded text item) : Items text [item]
  | more {text item following items} (value : Padded text item)
      (rest : Items following items) : Items (text ++ ',' :: following) (item :: items)

end

/-- A whole program: one value, with nothing but spaces around it. -/
def Program (text : List Char) (expr : Expr) : Prop := Padded text expr

end JsonForms.Grammar
