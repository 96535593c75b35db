import CodeAtlas.Glob.Exclusion
import CodeAtlas.Glob.Spec
import CodeAtlas.Log.Basic
import CodeAtlas.Store.View

/-!
# Discovery of source files

The source files of a project: those that some pattern lists, that no exclusion takes out and whose
extension is recognised, each once, in the order of the patterns and then of the listing. There is a
limit to their number, and a report if it cuts the list.
-/

namespace CodeAtlas

/-- Which files to look for. -/
structure DiscoveryOptions where
  /-- The patterns that list files; without any, all source files. -/
  includes : List String := []
  /-- Patterns of what is left out, besides what is left out anyway. -/
  excludes : List String := []
  /-- How many files to find at most. -/
  maxFiles : Int := 10000
  /-- Whether to leave out what builds and package managers produce. -/
  usesDefaultExcludes : Bool := true
  deriving DecidableEq, Repr, Inhabited

namespace DiscoveryOptions

/-- The pattern of all source files. -/
def allSources : List String :=
  ["**/*.\x7bts,tsx,js,jsx,java,py\x7d"]

/-- The patterns that list files. -/
def includePatterns (options : DiscoveryOptions) : List String :=
  if options.includes.isEmpty then allSources else options.includes

/-- The patterns of what is left out. -/
def excludePatterns (options : DiscoveryOptions) : List String :=
  Glob.excludePatterns options.usesDefaultExcludes options.excludes

end DiscoveryOptions

/-- What a search has found so far. -/
structure Discovery where
  /-- The files looked at, wanted or not. -/
  seen : List String := []
  /-- The files found. -/
  files : List String := []
  /-- Whether the limit kept a file out. -/
  isCut : Bool := false
  deriving DecidableEq, Repr, Inhabited

namespace Discovery

/-- Looks at one more file. The patterns of what is left out are only read for a file that has not
been seen. -/
def visit (view : FileView) (excludes : Except Failure (String → Bool)) (limit : Int)
    (found : Discovery) (path : String) : Except Failure Discovery :=
  let path := view.canonical path
  if found.isCut || found.seen.contains path then .ok found
  else
    excludes.map fun isExcluded =>
      let found := { found with seen := found.seen ++ [path] }
      if isExcluded (view.relative path) || (Language.ofPath? path).isNone then found
      else if limit ≤ found.files.length then { found with isCut := true }
      else { found with files := found.files ++ [path] }

/-- Looks at the files that one more pattern lists. After a cut no pattern is read. -/
def visitPattern (view : FileView) (excludes : Except Failure (String → Bool)) (limit : Int)
    (found : Discovery) (pattern : String) : Except Failure Discovery :=
  if found.isCut then .ok found
  else do (← view.list pattern).foldlM (visit view excludes limit) found

/-- Searches a project. -/
def run (view : FileView) (options : DiscoveryOptions) (engine : Glob.Engine := Glob.gitignore) :
    Except Failure Discovery :=
  let excludes := engine.compile options.excludePatterns
  options.includePatterns.foldlM (visitPattern view excludes options.maxFiles) {}

/-- What is reported of a search. -/
def lines (found : Discovery) (options : DiscoveryOptions) : List Log.Line :=
  if found.isCut then
    let limit := options.maxFiles
    [⟨.warning,
      s!"[ImportIndex] File limit reached ({limit}); remaining files are not indexed"⟩]
  else []

end Discovery

end CodeAtlas
