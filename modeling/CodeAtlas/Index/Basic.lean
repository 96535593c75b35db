import CodeAtlas.Index.Declared
import CodeAtlas.Index.Discovery

/-!
# The index of declared names

For every name the files that declare it, in the order in which they were scanned. Files can be
added to an index at any time; a file that was scanned or skipped before is left alone. A file that
cannot be read is skipped.
-/

namespace CodeAtlas

/-- Names and the files that declare them. -/
structure ImportIndex where
  /-- Every name with its files, in the order in which the names were found. -/
  entries : List (String × List String) := []
  /-- The files read. -/
  scanned : List String := []
  /-- The files that could not be read. -/
  skipped : List String := []
  /-- Whether files have been added since the index was last empty. -/
  isBuilt : Bool := false
  deriving DecidableEq, Repr, Inhabited

namespace ImportIndex

/-! ## Queries -/

/-- The files that declare a name. -/
def resolve (index : ImportIndex) (name : String) : List String :=
  ((index.entries.find? (·.1 == name)).map (·.2)).getD []

/-- Whether a file declares the name. -/
def contains (index : ImportIndex) (name : String) : Bool :=
  index.entries.any (·.1 == name)

/-- The names that files declare. -/
def names (index : ImportIndex) : List String :=
  index.entries.map (·.1)

/-- Whether the index has met a file. -/
def covers (index : ImportIndex) (path : String) : Bool :=
  index.scanned.contains path || index.skipped.contains path

/-- How many names more than one file declares. -/
def duplicates (index : ImportIndex) : Nat :=
  index.entries.countP (1 < ·.2.length)

/-! ## Scanning -/

/-- The entries with one more file for a name. -/
def insert (name path : String) :
    List (String × List String) → List (String × List String)
  | [] => [(name, [path])]
  | (n, paths) :: rest =>
    if n == name then (n, if paths.contains path then paths else paths ++ [path]) :: rest
    else (n, paths) :: insert name path rest

/-- The index with a file that declares some names. -/
def addFile (index : ImportIndex) (path : String) (names : List String) : ImportIndex :=
  { index with
    scanned := index.scanned ++ [path]
    entries := names.foldl (fun entries name => insert name path entries) index.entries }

/-- The index with a file that cannot be read. -/
def skipFile (index : ImportIndex) (path : String) : ImportIndex :=
  { index with skipped := index.skipped ++ [path] }

/-- What a scan leaves: the index, what was reported, and whether it came to its end. -/
structure Scan where
  index : ImportIndex
  lines : List Log.Line
  outcome : Except Failure Unit

/-- What is reported of a file that cannot be read. -/
def skipLine (path : String) (e : Failure) : Log.Line :=
  let cause := e.message
  ⟨.debug, s!"[ImportIndex] Skipping {path}: {cause}"⟩

/-- Adds files to an index. The language of a file decides what counts as a declaration. -/
def indexFiles (view : FileView) (index : ImportIndex) : List String → Scan
  | [] => ⟨{ index with isBuilt := true }, [], .ok ()⟩
  | path :: rest =>
    if index.covers path then indexFiles view index rest
    else
      match Language.ofFile path, view.read path with
      | .error e, _ => ⟨index, [], .error e⟩
      | .ok _, .error e =>
        let later := indexFiles view (index.skipFile path) rest
        { later with lines := skipLine path e :: later.lines }
      | .ok language, .ok text =>
        indexFiles view (index.addFile path (Index.declaredNames language text)) rest

/-- What is reported of a finished build. -/
def builtLine (index : ImportIndex) : Log.Line :=
  let names := index.entries.length
  let files := index.scanned.length
  ⟨.info, s!"[ImportIndex] Indexed {names} names from {files} files"⟩

/-- Removes every file. -/
def clear (index : ImportIndex) : ImportIndex :=
  { index with entries := [], scanned := [], skipped := [], isBuilt := false }

/-- Builds an index anew from the files of a project. -/
def build (view : FileView) (options : DiscoveryOptions) (index : ImportIndex := {}) : Scan :=
  let index := index.clear
  match Discovery.run view options with
  | .error e => ⟨index, [], .error e⟩
  | .ok found =>
    let scan := indexFiles view index found.files
    { scan with
      lines := found.lines options ++ scan.lines ++
        match scan.outcome with
        | .ok _ => [scan.index.builtLine]
        | .error _ => [] }

/-! ## Histories -/

/-- What can be done with an index. -/
inductive Action where
  /-- Builds it anew. -/
  | build (options : DiscoveryOptions)
  /-- Adds files. -/
  | indexFiles (paths : List String)
  /-- Removes every file. -/
  | clear

/-- Does an action. -/
def perform (view : FileView) (index : ImportIndex) : Action → Scan
  | .build options => build view options index
  | .indexFiles paths => indexFiles view index paths
  | .clear => ⟨index.clear, [], .ok ()⟩

/-- The index after a list of actions. -/
def after (view : FileView) (index : ImportIndex) (actions : List Action) : ImportIndex :=
  actions.foldl (fun index action => (perform view index action).index) index

/-- What a scan gives that goes on with another one if it has come to its end. -/
def Scan.andThen (scan : Scan) (next : ImportIndex → Scan) : Scan :=
  match scan.outcome with
  | .error _ => scan
  | .ok _ => { next scan.index with lines := scan.lines ++ (next scan.index).lines }

end ImportIndex

end CodeAtlas
