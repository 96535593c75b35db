import CodeAtlas.Store.Directory

/-!
# Histories of a directory

What happens to a directory on disk, one event after the other: files are written and removed, and the
lines of the ignore files are asked for, on their own or for a listing.
-/

namespace CodeAtlas.DirectoryStore

/-- The key of the file at a path below the root. -/
def keyOf (path : String) : String :=
  String.ofList (Path.normalizeChars path.toList)

/-- Removes the file at a path below the root. -/
def erase (store : DirectoryStore) (path : String) : DirectoryStore :=
  { store with files := store.files.filter (·.1 != keyOf path) }

/-- What can happen to a directory. -/
inductive Event where
  /-- A file is written, at a given time or now. -/
  | write (path : String) (bytes : List UInt8) (time : Option Int)
  /-- A file is removed. -/
  | erase (path : String)
  /-- The lines of the ignore files are asked for. -/
  | ask
  deriving DecidableEq, Repr

/-- The key of the file that an event changes. -/
def Event.key? : Event → Option String
  | .write path _ _ => some (keyOf path)
  | .erase path => some (keyOf path)
  | .ask => none

/-- The directory after an event. -/
def perform (store : DirectoryStore) : Event → DirectoryStore
  | .write path bytes time => store.write path bytes time
  | .erase path => store.erase path
  | .ask => store.remember

/-- The directory after some events. -/
def after (store : DirectoryStore) (events : List Event) : DirectoryStore :=
  events.foldl perform store

/-- The directory as each call for the lines found it. -/
def visits (store : DirectoryStore) : List Event → List DirectoryStore
  | [] => []
  | .ask :: rest => store :: (store.perform .ask).visits rest
  | event :: rest => (store.perform event).visits rest

end CodeAtlas.DirectoryStore
