import CodeAtlas.Specifier

/-!
# Access to files

What the analyses know of the place where files lie: how to read and list them, and how to name
them. Every file has one canonical path, whatever spelling it is asked for by, and a path relative
to the root, which patterns are matched against.
-/

namespace CodeAtlas

/-- The files of a project at one moment. -/
structure FileView where
  root : String
  /-- The one name of the file that a path names. -/
  canonical : String → String
  /-- The path below the root. -/
  relative : String → String
  /-- Whether a path names a file. -/
  contains : String → Bool
  /-- The text of a file. -/
  read : String → Except Failure String
  /-- The files whose relative paths match a pattern. -/
  list : String → Except Failure (List String)

namespace FileView

/-- The file that a specifier in a file means. -/
def resolveImport (view : FileView) (importer specifier : String) : Option String :=
  Specifier.resolve? view.contains (view.canonical importer) specifier

/-- The view in which some paths cannot be read, for a reason. -/
def withUnreadable (view : FileView) (paths : List String) (reason : String) : FileView :=
  { view with
    read := fun path => if paths.contains path then .error (.unreadable reason) else view.read path }

end FileView

end CodeAtlas
