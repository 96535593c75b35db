/-!
# Values of a settings file

Whole numbers and numbers with a point or exponent are kept apart, and the members of an object
keep the order in which their keys first appear.
-/

namespace CodeAtlas

/-- A value as a settings file may hold it. -/
inductive Json where
  | null
  | bool (value : Bool)
  | int (value : Int)
  | float (value : Float)
  | str (value : String)
  | arr (items : List Json)
  | obj (members : List (String × Json))
  deriving Inhabited

namespace Json

/-- Adds a member. A later value under the same key takes the place of the earlier one. -/
def insertMember (key : String) (value : Json) :
    List (String × Json) → List (String × Json)
  | [] => [(key, value)]
  | (k, v) :: rest => if k == key then (k, value) :: rest else (k, v) :: insertMember key value rest

/-- The value under a key of an object. -/
def get? (key : String) : Json → Option Json
  | obj members => (members.find? (·.1 == key)).map (·.2)
  | _ => none

end Json

end CodeAtlas
