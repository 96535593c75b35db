import CodeAtlas.Json
import CodeAtlas.Decimal.Shortest
import CodeAtlas.Text.Quoted

/-!
# Values in messages

The form in which a message shows a value that was refused.
-/

namespace CodeAtlas.Json

mutual

/-- The value as a message shows it. -/
def literal : Json → String
  | null => "None"
  | bool true => "True"
  | bool false => "False"
  | int n => toString n
  | float x => Decimal.floatText x
  | str s => Text.quoted s
  | arr items => "[" ++ ", ".intercalate (literals items) ++ "]"
  | obj members => "\x7b" ++ ", ".intercalate (memberLiterals members) ++ "\x7d"

/-- The items of an array as a message shows them. -/
def literals : List Json → List String
  | [] => []
  | item :: items => literal item :: literals items

/-- The members of an object as a message shows them. -/
def memberLiterals : List (String × Json) → List String
  | [] => []
  | (key, value) :: members => (Text.quoted key ++ ": " ++ literal value) :: memberLiterals members

end

end CodeAtlas.Json
