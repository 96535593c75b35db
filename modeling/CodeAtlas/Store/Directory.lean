import CodeAtlas.Glob.Exclusion
import CodeAtlas.Glob.Spec
import CodeAtlas.Store.View
import CodeAtlas.Text.Line
import CodeAtlas.Text.Utf8

/-!
# Files in a directory

A directory on disk: bytes under paths, each file with the time of its last change. Texts are read
as UTF-8, with a replacement for what is none, and with line feeds as the only line ends. A
listing walks the directory from the top, the files of a directory before those below it, and
leaves out what the ignore file of the root names. The lines of that file are kept as long as it
does not change.
-/

namespace CodeAtlas

/-- The time of the last change of a file. -/
inductive Stamp where
  /-- A given time. -/
  | at (seconds : Int)
  /-- The time of a write, which differs from any other. -/
  | write (number : Nat)
  deriving DecidableEq, Repr, Inhabited

/-- A file on disk. -/
structure StoredFile where
  bytes : List UInt8
  changed : Stamp
  deriving DecidableEq, Repr, Inhabited

namespace StoredFile

/-- The text of a file. -/
def text (file : StoredFile) : String :=
  String.ofList (Text.unixNewlines (Text.decodeLossy file.bytes))

/-- The lines of a file. -/
def lines (file : StoredFile) : List String :=
  (Text.lines file.text.toList).map String.ofList

end StoredFile

/-- A directory with the files in and below it. -/
structure DirectoryStore where
  /-- The path of the directory from the top of the disk. -/
  root : String
  /-- Whether listings respect the ignore file. -/
  usesIgnoreFile : Bool := true
  /-- The path below the root and the content of every file. -/
  files : List (String × StoredFile) := []
  /-- How many files have been written. -/
  writes : Nat := 0
  /-- The lines of the ignore files when they were last read, and when the first had changed. -/
  remembered : Option (Stamp × List String) := none
  deriving DecidableEq, Repr, Inhabited

namespace DirectoryStore

/-! ## Changes -/

/-- The table with a file under a key. -/
def put (key : String) (file : StoredFile) :
    List (String × StoredFile) → List (String × StoredFile)
  | [] => [(key, file)]
  | (k, f) :: rest => if k == key then (k, file) :: rest else (k, f) :: put key file rest

/-- Writes a file at a path below the root, at a given time or now. -/
def write (store : DirectoryStore) (path : String) (bytes : List UInt8) (time : Option Int) :
    DirectoryStore :=
  let key := String.ofList (Path.normalizeChars path.toList)
  let changed := match time with
    | some seconds => .at seconds
    | none => .write store.writes
  { store with files := put key { bytes, changed } store.files, writes := store.writes + 1 }

/-- Forgets the lines of the ignore files. -/
def forget (store : DirectoryStore) : DirectoryStore :=
  { store with remembered := none }

/-! ## Names -/

/-- The path from the top of the disk. A relative path starts at the root. -/
def absolute (store : DirectoryStore) (path : String) : String :=
  let path := Path.normalize path
  if Path.isAbsolute path then path else Path.normalize (store.root ++ "/" ++ path)

/-- The path below the root; outside of the root, the path without its leading slashes. -/
def relative (store : DirectoryStore) (path : String) : String :=
  let path := store.absolute path
  match Text.dropStart? (store.root.toList ++ ['/']) path.toList with
  | some rest => String.ofList rest
  | none => Path.dropRoot path

/-- The file under a path. Any number of slashes leads to the top of the disk. -/
def file? (store : DirectoryStore) (path : String) : Option StoredFile :=
  let place := '/' :: (store.absolute path).toList.dropWhile (· == '/')
  match Text.dropStart? (store.root.toList ++ ['/']) place with
  | some rest => (store.files.find? (·.1 == String.ofList rest)).map (·.2)
  | none => none

/-- Whether there is a file under a path. -/
def contains (store : DirectoryStore) (path : String) : Bool :=
  (store.file? path).isSome

/-- How many bytes a name may have. -/
def nameLimit : Nat := 255

/-- How many bytes a path may have. -/
def pathLimit : Nat := 4095

/-- Whether there is a directory under a path from the top of the disk. -/
def hasDirectory (store : DirectoryStore) (path : String) : Bool :=
  let start := path.toList ++ ['/']
  start.isPrefixOf (store.root.toList ++ ['/']) ||
    store.files.any fun (key, _) => start.isPrefixOf (store.root ++ "/" ++ key).toList

/-- Whether the way to a file ends at a name that is too long: every directory on the way to that
name is there. -/
def meetsLongName (store : DirectoryStore) (directory : String) : List String → Bool
  | [] => false
  | name :: rest =>
    nameLimit < name.utf8ByteSize ||
      (store.hasDirectory (directory ++ "/" ++ name) &&
        meetsLongName store (directory ++ "/" ++ name) rest)

/-- Why there is no file under a path. -/
def absence (store : DirectoryStore) (path : String) : Failure :=
  let path := store.absolute path
  let names := (Text.splitAt '/' (Path.dropRoot path).toList).map String.ofList
  if path.toList.contains '\x00' then .nullInPath
  else if pathLimit < path.utf8ByteSize || store.meetsLongName "" names then .pathTooLong path
  else .fileNotFound path

/-- The text of a file. -/
def read (store : DirectoryStore) (path : String) : Except Failure String :=
  match store.file? path with
  | some file => .ok file.text
  | none => .error (store.absence path)

/-! ## Ignore files -/

/-- The file under a path below the root. -/
def below? (store : DirectoryStore) (path : String) : Option StoredFile :=
  (store.files.find? (·.1 == path)).map (·.2)

/-- When the ignore file was last changed. -/
def ignoreStamp (store : DirectoryStore) : Stamp :=
  match store.below? ".gitignore" with
  | some file => file.changed
  | none => .at 0

/-- The lines of the ignore file, then those of the private one. -/
def currentIgnoreLines (store : DirectoryStore) : List String :=
  [".gitignore", ".git/info/exclude"].flatMap fun path =>
    match store.below? path with
    | some file => file.lines
    | none => []

/-- The lines of the ignore files, as remembered unless the first has changed since. -/
def ignoreLines (store : DirectoryStore) : List String :=
  match store.remembered with
  | some (stamp, lines) => if stamp = store.ignoreStamp then lines else store.currentIgnoreLines
  | none => store.currentIgnoreLines

/-- The store that remembers the lines of the ignore files. -/
def remember (store : DirectoryStore) : DirectoryStore :=
  { store with remembered := some (store.ignoreStamp, store.ignoreLines) }

/-- What the ignore files keep out of a listing. -/
def ignored (store : DirectoryStore) (engine : Glob.Engine) : Except Failure (String → Bool) :=
  if store.usesIgnoreFile then engine.compile store.ignoreLines else .ok fun _ => false

/-! ## Listings -/

/-- The order of a walk: the files of a directory by name, then its subdirectories by name. -/
def walksBefore : List String → List String → Bool
  | [], _ => true
  | _, [] => false
  | [a], [b] => !(b < a)
  | [_], _ => true
  | _, [_] => false
  | a :: as, b :: bs => if a == b then walksBefore as bs else !(b < a)

/-- Whether a walk reaches a file, given the path of the directory that it is in and the rest of
its own: no directory on the way is one that is never entered or that is ignored, nor is the
file. -/
def isReached (isIgnored : String → Bool) (directory : String) : List String → Bool
  | [] => true
  | [name] => !isIgnored (directory ++ name)
  | name :: rest =>
    let inner := directory ++ name ++ "/"
    !Glob.unvisitedDirs.contains name && !isIgnored inner && isReached isIgnored inner rest

/-- The paths below the root of the files that a walk reaches, in its order. -/
def walk (store : DirectoryStore) (isIgnored : String → Bool) : List String :=
  let paths := store.files.map fun (path, _) => (Text.splitAt '/' path.toList).map String.ofList
  ((paths.filter (isReached isIgnored "")).mergeSort walksBefore).map ("/".intercalate ·)

/-- The files that match a pattern. The pattern is not read before the walk reaches a file. -/
def list (store : DirectoryStore) (pattern : String) (engine : Glob.Engine := Glob.gitignore) :
    Except Failure (List String) := do
  let reached := store.walk (← store.ignored engine)
  if reached.isEmpty then pure []
  else
    let isSelected ← engine.compile [pattern]
    pure ((reached.filter isSelected).map fun path => store.root ++ "/" ++ path)

/-- The files of the directory. -/
def view (store : DirectoryStore) (engine : Glob.Engine := Glob.gitignore) : FileView :=
  { root := store.root
    canonical := store.absolute
    relative := store.relative
    contains := store.contains
    read := store.read
    list := fun pattern => store.list pattern engine }

end DirectoryStore

end CodeAtlas
