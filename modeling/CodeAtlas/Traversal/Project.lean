import CodeAtlas.Parser.Parsing
import CodeAtlas.Relation.Extraction
import CodeAtlas.Store.View

/-!
# Projects

A project is files together with a grammar engine. A file is loaded by reading and parsing it and
finding its relationships; either of the first two can fail.
-/

namespace CodeAtlas

/-- A file that has been read and parsed. -/
structure LoadedFile where
  outline : Outline
  report : RelationReport
  deriving Inhabited

/-- The file of an outline. -/
def LoadedFile.ofOutline (outline : Outline) : LoadedFile :=
  { outline, report := .ofOutline outline }

/-- Files that can be read and parsed. -/
structure Project where
  view : FileView
  grammar : Grammar

namespace Project

/-- Loads the file of a canonical path. -/
def load (project : Project) (path : String) : Except Failure LoadedFile := do
  let text ← project.view.read path
  let outline ← Outline.ofFile path (project.grammar path text)
  pure (.ofOutline outline)

/-- Whether the file of a path can be loaded. -/
def isLoadable (project : Project) (path : String) : Bool :=
  match project.load path with
  | .ok _ => true
  | .error _ => false

end Project

end CodeAtlas
