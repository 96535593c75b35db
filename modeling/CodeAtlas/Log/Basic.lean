/-!
# Log lines

What the analyses report while they run. A line is a level and a text.
-/

namespace CodeAtlas.Log

/-- How much a line matters. -/
inductive Level where
  | debug
  | info
  | warning
  deriving DecidableEq, Repr, Inhabited

namespace Level

/-- The name of a level. -/
def name : Level → String
  | debug => "DEBUG"
  | info => "INFO"
  | warning => "WARNING"

/-- The rank of a level: what matters more ranks higher. -/
def rank : Level → Nat
  | debug => 0
  | info => 1
  | warning => 2

/-- Whether lines of a level pass a threshold. -/
def passes (level threshold : Level) : Bool :=
  threshold.rank ≤ level.rank

end Level

/-- A line of the log. -/
structure Line where
  level : Level
  text : String
  deriving DecidableEq, Repr, Inhabited

namespace Line

/-- The line as written. -/
def render (line : Line) : String :=
  s!"[{line.level.name}] {line.text}"

end Line

/-- The lines that a reader sees, who asked for debugging output or did not. -/
def visible (isDebug : Bool) (lines : List Line) : List Line :=
  lines.filter fun line => isDebug || line.level != .debug

end CodeAtlas.Log
