import CodeAtlas.Outline.Basic

/-!
# What declarations add

Readers go through a file declaration by declaration and put the results together in order.
-/

namespace CodeAtlas

/-- What a declaration adds to an outline, with the name and kind of everything it declares. -/
structure Declared where
  classes : List ClassDecl := []
  interfaces : List InterfaceDecl := []
  functions : List FunctionDecl := []
  names : List (String × String) := []

namespace Declared

def append (a b : Declared) : Declared :=
  { classes := a.classes ++ b.classes
    interfaces := a.interfaces ++ b.interfaces
    functions := a.functions ++ b.functions
    names := a.names ++ b.names }

instance : Append Declared := ⟨append⟩

/-- What several declarations add. -/
def concat (ds : List Declared) : Declared :=
  ds.foldl append {}

end Declared

end CodeAtlas
