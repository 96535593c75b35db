import CodeAtlas.Failure
import CodeAtlas.Glob.Brace
import CodeAtlas.Glob.Pattern

/-!
# Lists of patterns

What reads lists of patterns is a library of its own (`Engine`); braces are resolved before it sees
them. The one in use reads them as ignore files are read (`gitignore`): of the patterns of a list
that a path matches the last decides.
-/

namespace CodeAtlas.Glob

/-- A reader of lists of patterns without braces. -/
structure Engine where
  /-- The paths that a list of patterns selects, or why it cannot be read. -/
  read : List String → Except Failure (String → Bool)

/-- Reads a list of patterns with braces. -/
def Engine.compile (engine : Engine) (patterns : List String) : Except Failure (String → Bool) :=
  engine.read (patterns.flatMap expandBraces)

/-- The patterns of a list that say something. -/
abbrev Spec := List Pattern

namespace Spec

/-- Reads one line onto the patterns before it. -/
def addLine (spec : Spec) (line : String) : Except Failure Spec :=
  if line.isEmpty then .ok spec
  else
    match Pattern.read line.toList with
    | .ok p => .ok (spec ++ [p])
    | .error .idle => .ok spec
    | .error .malformed => .error (.malformedPattern line)
    | .error (.reversed range) => .error (.reversedRange range.text range.offset range.place)

/-- Whether the last pattern that a path matches takes it in. -/
def selects (spec : Spec) (path : String) : Bool :=
  match (spec.filter (·.matches path.toList)).getLast? with
  | some p => p.isInclude
  | none => false

end Spec

/-- Patterns as the lines of an ignore file. -/
def gitignore : Engine where
  read lines := (lines.foldlM Spec.addLine []).map Spec.selects

/-- Whether a path is one that a list of patterns selects. -/
def selects (patterns : List String) (path : String) : Except Failure Bool :=
  (gitignore.compile patterns).map fun selected => selected path

/-- Whether a path matches one pattern. -/
def matchesGlob (path pattern : String) : Except Failure Bool :=
  selects [pattern] path

end CodeAtlas.Glob
