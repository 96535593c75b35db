import CodeAtlas.Declaration
import CodeAtlas.Language.Basic
import CodeAtlas.Syntax.Node

/-!
# Outlines

An outline gathers the declarations, imports and exports of one file. The analyses read outlines;
of grammars they know nothing but the syntax of calls.
-/

namespace CodeAtlas

/-- What one file declares, imports and exports. The syntax tree stays with it for the analysis of
calls. -/
structure Outline where
  language : Language
  path : String
  classes : List ClassDecl := []
  interfaces : List InterfaceDecl := []
  functions : List FunctionDecl := []
  imports : List Import := []
  exports : List Export := []
  tree : Option Syntax.Node := none
  deriving Inhabited

namespace Outline

/-- The first class of a name. -/
def class? (o : Outline) (name : String) : Option ClassDecl :=
  o.classes.find? (·.name == name)

/-- The names of the classes and interfaces, each once. -/
def declaredNames (o : Outline) : List String :=
  (o.classes.map (·.name) ++ o.interfaces.map (·.name)).eraseDups

end Outline

end CodeAtlas
