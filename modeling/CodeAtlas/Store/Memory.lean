import CodeAtlas.Glob.Spec
import CodeAtlas.Store.View

/-!
# Files in memory

A table from normal paths to texts. Files are listed in the order in which they were first added;
new text for a file leaves its place, and a file that was removed comes back at the end.
-/

namespace CodeAtlas

/-- Files that are held in memory. -/
structure MemoryStore where
  /-- The directory that relative paths start from. -/
  root : String := "/"
  /-- The normal path and the text of every file. -/
  files : List (String × String) := []
  deriving DecidableEq, Repr, Inhabited

namespace MemoryStore

/-- The store without files at a root. The empty path stands for the topmost directory. -/
def empty (root : String) : MemoryStore :=
  { root := if root.isEmpty then "/" else Path.normalize root }

/-! ## Changes -/

/-- The table with a text under a key. -/
def put (key text : String) : List (String × String) → List (String × String)
  | [] => [(key, text)]
  | (k, t) :: rest => if k == key then (k, text) :: rest else (k, t) :: put key text rest

/-- Adds a file, or gives it a new text. -/
def add (store : MemoryStore) (path text : String) : MemoryStore :=
  { store with files := put (Path.normalize path) text store.files }

/-- The text under a path. -/
def text? (store : MemoryStore) (path : String) : Option String :=
  (store.files.find? (·.1 == Path.normalize path)).map (·.2)

/-- Whether there is a file under a path. -/
def contains (store : MemoryStore) (path : String) : Bool :=
  (store.text? path).isSome

/-- Removes a file, and tells whether it was there. -/
def remove (store : MemoryStore) (path : String) : MemoryStore × Bool :=
  ({ store with files := store.files.filter (·.1 != Path.normalize path) }, store.contains path)

/-- The number of files. -/
def size (store : MemoryStore) : Nat :=
  store.files.length

/-- The store with some files at a root. -/
def ofFiles (root : String) (files : List (String × String)) : MemoryStore :=
  files.foldl (fun store (path, text) => store.add path text) (empty root)

/-! ## Queries -/

/-- The text of a file. -/
def read (store : MemoryStore) (path : String) : Except Failure String :=
  match store.text? path with
  | some text => .ok text
  | none => .error (.fileNotFound path)

/-- The path below the root; outside of the root, the path without its leading slashes. -/
def relative (store : MemoryStore) (path : String) : String :=
  let path := Path.normalize path
  if ["/", ".", ""].contains store.root then Path.dropRoot path
  else if path == store.root then "."
  else
    match Text.dropStart? (store.root.toList ++ ['/']) path.toList with
    | some rest => String.ofList rest
    | none => Path.dropRoot path

/-- The files that match a pattern. Without files the pattern is not read. -/
def list (store : MemoryStore) (pattern : String) (engine : Glob.Engine := Glob.gitignore) :
    Except Failure (List String) :=
  if store.files.isEmpty then .ok []
  else
    (engine.compile [pattern]).map fun isSelected =>
      (store.files.map (·.1)).filter fun path => isSelected (store.relative path)

/-- The files of the store. -/
def view (store : MemoryStore) (engine : Glob.Engine := Glob.gitignore) : FileView :=
  { root := store.root
    canonical := Path.normalize
    relative := store.relative
    contains := store.contains
    read := store.read
    list := fun pattern => store.list pattern engine }

/-! ## Histories -/

/-- What can happen to the files of a store. -/
inductive Change where
  /-- A file is added, or gets a new text. -/
  | add (path text : String)
  /-- A file is removed. -/
  | remove (path : String)
  deriving DecidableEq, Repr

/-- The key of the file that a change is about. -/
def Change.key : Change → String
  | .add path _ => Path.normalize path
  | .remove path => Path.normalize path

/-- Makes a change. -/
def perform (store : MemoryStore) : Change → MemoryStore
  | .add path text => store.add path text
  | .remove path => (store.remove path).1

/-- The store at a root after a list of changes. -/
def after (root : String) (changes : List Change) : MemoryStore :=
  changes.foldl perform (empty root)

end MemoryStore

end CodeAtlas
