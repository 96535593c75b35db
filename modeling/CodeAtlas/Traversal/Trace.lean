import CodeAtlas.Traversal.Report

/-!
# What a traversal asks for

A traversal asks for files to be loaded, for the scope that class names are looked up in, and for
the lookup itself, in an order that its visits determine. The trace of a traversal lists these
requests, repeated ones included.
-/

namespace CodeAtlas.Traversal

/-- Something that a traversal asks for, or a stage that it has come to. -/
inductive Event where
  /-- A file is asked for. -/
  | load (path : String)
  /-- The source files of the project are asked for. -/
  | scope
  /-- The declarers of a name are asked for. -/
  | lookup
  /-- The edges between the files of the scope are known. -/
  | mapped (files targets : Nat)
  deriving DecidableEq, Repr, Inhabited

namespace ImportGraph

/-- What finding the files that a file leads to asks for, after the file itself. -/
def stepTrace (graph : ImportGraph) (path : String) : List Event :=
  match graph.project.load path with
  | .ok file => if (openNames graph.project.view path file).isEmpty then [] else [.scope, .lookup]
  | .error _ => []

/-- What a search forward asks for. Beyond the last hop no step is taken. -/
def forwardTrace (graph : ImportGraph) (depth : Nat) (entry : String) : List Event :=
  (graph.forwardVisits depth entry).flatMap fun visit =>
    .load visit.path :: if visit.hop < depth then graph.stepTrace visit.path else []

/-- What finding the edges of the scope asks for. -/
def edgesTrace (graph : ImportGraph) : List Event :=
  let scope := graph.lookup.scope
  .scope :: scope.flatMap (fun path => .load path :: graph.stepTrace path) ++
    [.mapped scope.length graph.referencedFiles.length]

/-- What a search backward asks for. The edges are found for the first step, which is the one from
the entry. -/
def backwardTrace (graph : ImportGraph) (depth : Nat) (entry : String) : List Event :=
  let edges := if 0 < depth && graph.project.isLoadable entry then graph.edgesTrace else []
  .load entry :: edges ++ (graph.backwardVisits depth entry).map fun visit => .load visit.path

/-- What a traversal asks for. -/
def trace (graph : ImportGraph) (entry : String) (mode : Mode) (depth : Nat) : List Event :=
  (if mode.goesForward then graph.forwardTrace depth entry else []) ++
    (if mode.goesBackward then graph.backwardTrace depth entry else [])

end ImportGraph

end CodeAtlas.Traversal
