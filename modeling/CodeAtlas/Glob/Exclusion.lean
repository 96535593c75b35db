/-!
# What a scan leaves out

Directories of version control are always left out, and what builds and package managers produce
unless the caller wants it.
-/

namespace CodeAtlas.Glob

/-- Directories of version control. -/
def versionControlDirs : List String :=
  [".git", ".hg", ".svn"]

/-- What is left out of a project with script files. -/
def scriptExcludes : List String :=
  ["node_modules", "dist", "build", ".next", "out", "*.min.js", "*.bundle.js", ".vscode", ".git"]

/-- What is left out of a project with Java files. -/
def javaExcludes : List String :=
  ["target", "build", ".gradle", ".idea", "*.class", ".git"]

/-- What is left out of a project with Python files. -/
def pythonExcludes : List String :=
  ["__pycache__", "*.pyc", ".pytest_cache", "venv", "env", ".venv", "dist", "build", ".git"]

/-- What is left out by default for any language, each pattern once. -/
def defaultExcludes : List String :=
  (scriptExcludes ++ javaExcludes ++ pythonExcludes).eraseDups

/-- The patterns of what a scan leaves out: version control, then the defaults, then what the
caller adds. -/
def excludePatterns (useDefaults : Bool) (extra : List String) : List String :=
  versionControlDirs ++
    (if useDefaults then defaultExcludes.filter (!versionControlDirs.contains ·) else []) ++ extra

/-- Directories that a walk over a disk never enters. -/
def unvisitedDirs : List String :=
  [".git", ".hg", ".svn", "node_modules", "__pycache__", ".pytest_cache", ".mypy_cache", ".venv",
   "venv", ".gradle", ".idea", ".next"]

end CodeAtlas.Glob
