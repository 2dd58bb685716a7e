import JsonForms.Text.Printable

/-!
# Quoted text

The form in which a text is shown between others, so that its bounds and all
its characters can be told. Quotes and backslashes are escaped, and so is every
character that is not printable: the usual ones by a letter, the others by
their code point.
-/

namespace JsonForms.Text

/-- The shown form of one character of a quoted text. -/
def escape : Char → List Char
  | '"' => ['\\', '"']
  | '\\' => ['\\', '\\']
  | '\n' => ['\\', 'n']
  | '\r' => ['\\', 'r']
  | '\t' => ['\\', 't']
  | '\x00' => ['\\', '0']
  | character =>
      if isPrintable character then [character]
      else ['\\', 'u', '{'] ++ Nat.toDigits 16 character.toNat ++ ['}']

/-- The shown form of a text, with its quotes. -/
def quote (text : String) : String :=
  String.ofList ('"' :: text.toList.flatMap escape ++ ['"'])

end JsonForms.Text
