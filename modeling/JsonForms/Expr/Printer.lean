import JsonForms.Expr.Basic
import JsonForms.Json.Quoted

/-!
# Written expressions

An expression is written as JSON without any space.
-/

namespace JsonForms.Expr

mutual

/-- The text of an expression. -/
def text : Expr → String
  | .int value => toString value.toInt
  | .str text => Json.quote text
  | .bool true => "true"
  | .bool false => "false"
  | .list items => "[" ++ ",".intercalate (itemTexts items) ++ "]"

/-- The texts of the items of a list. -/
def itemTexts : List Expr → List String
  | [] => []
  | item :: following => item.text :: itemTexts following

end

end JsonForms.Expr
