import CodeAtlas.Index.Discovery
import CodeAtlas.Json
import CodeAtlas.Text.Line

/-!
# Settings

What a user may set for the analysis of a project. A value of the wrong type counts as absent, and
so does a limit that is not positive and a depth below zero; what is absent takes its default.
-/

namespace CodeAtlas

/-- The settings of a project. -/
structure Settings where
  /-- The patterns that list source files. -/
  includePatterns : List String := DiscoveryOptions.allSources
  /-- The patterns of what is left out, one on a line. -/
  excludedPatterns : String := ""
  usesDefaultExcludes : Bool := true
  maxFiles : Int := 10000
  defaultDepth : Int := 1
  deriving DecidableEq, Repr, Inhabited

namespace Settings

/-! ## Reading values -/

/-- The texts of a list that holds nothing else. -/
def texts? : Json → Option (List String)
  | .arr items => items.mapM fun
    | .str s => some s
    | _ => none
  | _ => none

/-- A text. -/
def text? : Json → Option String
  | .str s => some s
  | _ => none

/-- A truth value. -/
def flag? : Json → Option Bool
  | .bool b => some b
  | _ => none

/-- A whole number not below a bound. -/
def atLeast? (bound : Int) : Json → Option Int
  | .int n => if bound ≤ n then some n else none
  | _ => none

/-- The value of a setting, the default if there is none that fits. -/
def setting {α : Type} (value : Json) (key : String) (read : Json → Option α) (absent : α) : α :=
  ((value.get? key).bind read).getD absent

/-- The settings that an object stands for. -/
def ofJson (value : Json) : Settings :=
  let base : Settings := {}
  { includePatterns := setting value "include_patterns" texts? base.includePatterns
    excludedPatterns := setting value "excluded_patterns" text? base.excludedPatterns
    usesDefaultExcludes := setting value "use_default_excludes" flag? base.usesDefaultExcludes
    maxFiles := setting value "max_files" (atLeast? 1) base.maxFiles
    defaultDepth := setting value "default_depth" (atLeast? 0) base.defaultDepth }

/-! ## Writing values -/

/-- The object that stands for the settings. -/
def toJson (settings : Settings) : Json :=
  .obj
    [("include_patterns", .arr (settings.includePatterns.map .str)),
     ("excluded_patterns", .str settings.excludedPatterns),
     ("use_default_excludes", .bool settings.usesDefaultExcludes),
     ("max_files", .int settings.maxFiles),
     ("default_depth", .int settings.defaultDepth)]

/-! ## What they ask for -/

/-- The patterns of what is left out. Blank lines and lines that open with a number sign are
none. -/
def excludedList (settings : Settings) : List String :=
  ((Text.lines settings.excludedPatterns.toList).map Text.trim).filterMap fun line =>
    match line with
    | [] => none
    | c :: _ => if c == '#' then none else some (String.ofList line)

/-- The search for source files that the settings ask for. -/
def discovery (settings : Settings) : DiscoveryOptions :=
  { includes := settings.includePatterns
    excludes := settings.excludedList
    maxFiles := settings.maxFiles
    usesDefaultExcludes := settings.usesDefaultExcludes }

end Settings

end CodeAtlas
