import CodeAtlas.Failure
import CodeAtlas.Outline.Java
import CodeAtlas.Outline.Python
import CodeAtlas.Outline.Script
import CodeAtlas.Syntax.Walk

/-!
# The outline of a tree

A tree without faults gives the outline of its file, read by the rules of its language. The first
fault of a tree is a syntax error.
-/

namespace CodeAtlas.Outline

/-- The outline of a faultless tree. -/
def ofSoundTree (language : Language) (path : String) (root : Syntax.Node) : Outline :=
  match language with
  | .java => Java.outline path root
  | .python => Python.outline path root
  | .typescript | .javascript | .go => Script.outline language path root

/-- The outline of the tree of a file. -/
def ofTree (language : Language) (path : String) (root : Syntax.Node) : Except Failure Outline :=
  match root.firstFault? with
  | some fault => .error (.syntaxError path fault.line fault.label.isMissing)
  | none => .ok (ofSoundTree language path root)

end CodeAtlas.Outline
