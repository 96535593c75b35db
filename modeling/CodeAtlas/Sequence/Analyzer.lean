import CodeAtlas.Sequence.Extraction

/-!
# The analyzer of sequences

One analyzer draws the diagrams of many files, one after the other. What it finds out about a file
stands in tables that its passes read and add to: the declarations, the types that they tell, the
scopes, the assignments and the calls. It empties its tables before it goes on to the next file.
-/

namespace CodeAtlas

open Syntax

/-- The names of two lists of declarations. -/
def KnownNames.append (known more : KnownNames) : KnownNames :=
  { classMethods := known.classMethods ++ more.classMethods
    functions := known.functions ++ more.functions
    imported := known.imported ++ more.imported }

/-- The types that the declarations of an outline tell, with those that are recorded already. -/
def TypeTable.addOutline (table : TypeTable) (o : Outline) : TypeTable :=
  o.functions.foldl addFunction (o.classes.foldl addClass table)

/-- The diagram with the participants that a file declares. The module stands in where no class and
no function is known. -/
def Diagram.declare (d : Diagram) (known : KnownNames) (o : Outline) : Diagram :=
  let d := o.classes.foldl (fun d c => d.add c.name .cls (some c.line)) d
  let d := o.interfaces.foldl (fun d i => d.add i.name .cls (some i.line)) d
  let d := o.functions.foldl (fun d f => d.add f.name .function (some f.line)) d
  if known.classMethods.isEmpty && known.functions.isEmpty then d.add moduleName .module none
  else d

/-- An analyzer with what it has found out. -/
structure SequenceAnalyzer where
  known : KnownNames := ⟨[], [], []⟩
  diagram : Diagram := { path := "", participants := [], interactions := [] }
  table : TypeTable := .empty
  scopes : List Scope := []
  /-- How calls are written in the file at hand. -/
  calls : Option CallSyntax := none

namespace SequenceAnalyzer

/-! ## Passes -/

/-- Empties the tables for a file. -/
def reset (a : SequenceAnalyzer) (o : Outline) : SequenceAnalyzer :=
  { a with
    known := ⟨[], [], []⟩
    diagram := { path := o.path, participants := [], interactions := [] }
    table := .empty
    scopes := []
    calls := CallSyntax.ofLanguage? o.language }

/-- Collects what a file declares and imports. -/
def collectDeclarations (a : SequenceAnalyzer) (o : Outline) : SequenceAnalyzer :=
  let known := a.known.append (.ofOutline o)
  { a with known, diagram := a.diagram.declare known o }

/-- Records the types that the declarations of a file tell. -/
def trackDeclaredTypes (a : SequenceAnalyzer) (o : Outline) : SequenceAnalyzer :=
  { a with table := a.table.addOutline o }

/-- Adds the scopes that some captures open. -/
def buildScopes (a : SequenceAnalyzer) (captures : List (Capture CallTag)) : SequenceAnalyzer :=
  { a with scopes := a.scopes ++ Scope.ofCaptures captures }

/-- Records the types that assignments tell. -/
def trackAssignments (a : SequenceAnalyzer) (calls : CallSyntax)
    (captures : List (Capture CallTag)) : SequenceAnalyzer :=
  { a with table := captures.foldl (TypeTable.addCapture a.known calls a.scopes) a.table }

/-- Draws the calls. -/
def trackCalls (a : SequenceAnalyzer) (calls : CallSyntax) (captures : List (Capture CallTag)) :
    SequenceAnalyzer :=
  { a with diagram := captures.foldl (Diagram.addCapture a.table a.known calls a.scopes) a.diagram }

/-! ## Files -/

/-- The analyzer after a file. -/
def run (a : SequenceAnalyzer) (o : Outline) : SequenceAnalyzer :=
  let a := ((a.reset o).collectDeclarations o).trackDeclaredTypes o
  match o.tree, a.calls with
  | some root, some calls =>
    let captures := root.captures (byKind calls.tags)
    ((a.buildScopes captures).trackAssignments calls captures).trackCalls calls captures
  | _, _ => a

/-- Analyzes a file. -/
def analyze (a : SequenceAnalyzer) (o : Outline) : SequenceAnalyzer × SequenceReport :=
  let a := a.run o
  (a,
    { participants := a.diagram.participants
      interactions := a.diagram.interactions
      entryPoints := o.entryPoints })

end SequenceAnalyzer

end CodeAtlas
