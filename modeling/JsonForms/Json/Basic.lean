import JsonForms.Decimal.Layout

/-!
# JSON values

A JSON value as it is read. Numbers come in two kinds: whole numbers that were
written without fraction or exponent and fit into 64 bits, and doubles.
-/

namespace JsonForms

namespace Json

/-- A JSON number. -/
inductive Number where
  | integer (value : Int)
  | double (value : Float)

/-- Numbers from `0.00001` up to below `10 ^ 16` are written out in digits. -/
def Number.layout : Decimal.Layout := ⟨-5, 15, 'e'⟩

/-- The text of a number. -/
def Number.text : Number → String
  | .integer value => toString value
  | .double value => layout.writeDouble value

end Json

/-- A JSON value. The members of an object stand in the order of the text, and a
key may occur more than once. -/
inductive Json where
  | null
  | bool (value : Bool)
  | number (value : Json.Number)
  | string (text : String)
  | array (items : List Json)
  | object (members : List (String × Json))

end JsonForms
