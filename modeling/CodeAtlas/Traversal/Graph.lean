import CodeAtlas.Traversal.Lookup
import CodeAtlas.Traversal.Project

/-!
# The graph of files

A file leads to the files that its imports mean and to those that declare the class names it
refers to. A file that cannot be loaded leads nowhere.
-/

namespace CodeAtlas.Traversal

/-- A project with what class names are looked up in. -/
structure ImportGraph where
  project : Project
  lookup : Lookup

namespace ImportGraph

/-! ## Imports -/

/-- The files that an import means. A package that consists of dots alone is asked for every
imported name as a module first, and means itself only if none of them is one. -/
def targetsOf (view : FileView) (path : String) (i : Import) : List String :=
  let resolve (specifier : String) : Option String :=
    (view.resolveImport path specifier).map view.canonical
  let modules :=
    if !i.source.isEmpty && i.source.toList.all (· == '.') then
      i.specifiers.filterMap fun name => resolve (i.source ++ name)
    else []
  if modules.isEmpty then (resolve i.source).toList else modules

/-- The names that an import brings in. -/
def namesOf (i : Import) : List String :=
  i.specifiers ++ i.asName.toList.filter (!·.isEmpty)

/-- The imports that mean a file. -/
def resolved (view : FileView) (path : String) (imports : List Import) : List Import :=
  imports.filter fun i => !(targetsOf view path i).isEmpty

/-! ## Class names -/

/-- The names of classes that a file refers to, each once: the targets of its relationships, then
the bases of its classes. -/
def referencedNames (file : LoadedFile) : List String :=
  (file.report.relations.map (·.target) ++
    file.outline.classes.flatMap fun c =>
      c.base.toList.filter (!·.isEmpty) ++ c.implements).eraseDups

/-- The class names that are looked up: those that the file neither declares nor imports from a
file. -/
def openNames (view : FileView) (path : String) (file : LoadedFile) : List String :=
  let imported := (resolved view path file.outline.imports).flatMap namesOf
  (referencedNames file).filter fun name =>
    !file.outline.declaredNames.contains name && !imported.contains name

/-! ## Steps -/

/-- The files that a loaded file leads to, each once, itself excepted. -/
def nextOf (graph : ImportGraph) (path : String) (file : LoadedFile) : List String :=
  let view := graph.project.view
  let imported := (file.outline.imports.flatMap (targetsOf view path)).filter (· != path)
  let declaring := (openNames view path file).filterMap fun name =>
    graph.lookup.choose? path name file.outline.imports
  (imported ++ declaring).eraseDups

/-- The files that a file leads to. -/
def next (graph : ImportGraph) (path : String) : List String :=
  match graph.project.load path with
  | .ok file => graph.nextOf path file
  | .error _ => []

/-- Every file of the scope with the files that it leads to. -/
def edges (graph : ImportGraph) : List (String × List String) :=
  graph.lookup.scope.map fun path => (path, graph.next path)

/-- The files that lead to a file, given what every file leads to. -/
def sourcesIn (edges : List (String × List String)) (path : String) : List String :=
  (edges.filter (·.2.contains path)).map (·.1)

/-- The files of the scope that lead to a file. -/
def previous (graph : ImportGraph) (path : String) : List String :=
  sourcesIn graph.edges path

/-- The files that the files of the scope lead to. -/
def referencedFiles (graph : ImportGraph) : List String :=
  (graph.edges.flatMap (·.2)).eraseDups

end ImportGraph

end CodeAtlas.Traversal
