import CodeAtlas.Traversal.Queue
import CodeAtlas.Traversal.Session

/-!
# The analyzer and its caches

An analyzer answers requests one after the other, and it remembers what it has found out: which
files it has loaded and why others could not be, which visited files are unreachable, what files
lead to, the reverse of that, the scope, and the indexes that names are looked up in. All of this is
meant for one traversal. It is thrown away when the next request has been found good, and a request
that is refused leaves it as it is.

Every operation first asks the cache that it keeps. `Session.analyze` gives the same answers without
caches, from the graph of the project as a whole.
-/

namespace CodeAtlas.Traversal

/-! ## State -/

/-- What is remembered of a traversal. -/
structure Caches where
  /-- The files asked for, and of each what it holds if it could be loaded. -/
  parsed : List (String × Option LoadedFile) := []
  /-- Why files could not be loaded. -/
  failures : List (String × String) := []
  /-- The visited files that could not be loaded. -/
  unreachable : List UnreachableFile := []
  /-- The files that files lead to. -/
  nextHops : List (String × List String) := []
  /-- The files that lead to files, once they have been asked for. -/
  reverse : Option (List (String × List String)) := none
  /-- The source files of the project, once they have been asked for. -/
  scope : Option (List String) := none
  /-- The indexes that class names are looked up in, once they have been asked for. -/
  indexes : Option (List ImportIndex) := none
  deriving Inhabited

/-- An analyzer of projects. -/
structure Analyzer where
  parsers : ParserRegistry := .standard
  /-- The index that the caller supplied. -/
  supplied : Option ImportIndex := none
  caches : Caches := {}
  deriving Inhabited

namespace Analyzer

/-- The analyzer without what it remembers of a traversal. -/
def reset (a : Analyzer) : Analyzer :=
  { a with caches := {} }

/-- The outline of a file that the last traversal loaded. -/
def outline? (a : Analyzer) (view : FileView) (path : String) : Option Outline :=
  match a.caches.parsed.lookup (view.canonical path) with
  | some (some file) => some file.outline
  | _ => none

/-- An analyzer at work, with what it has reported and the files that it has handed to the
parsers. -/
structure Work extends Analyzer where
  lines : List Log.Line := []
  handed : List String := []
  deriving Inhabited

/-- A part of the work. Where it fails, what has been remembered so far is kept. -/
abbrev Task (α : Type) := EStateM Failure Work α

/-- Reports some lines. -/
def say (lines : List Log.Line) : Task Unit :=
  modify fun w => { w with lines := w.lines ++ lines }

/-- Changes what is remembered. -/
def remember (change : Caches → Caches) : Task Unit :=
  modify fun w => { w with caches := change w.caches }

/-! ## Files -/

section Operations

variable (project : Project)

/-- Remembers a file that cannot be loaded. -/
def miss (path : String) (e : Failure) : Task (Option LoadedFile) := do
  say [Progress.skipLine path e]
  remember fun c =>
    { c with failures := c.failures ++ [(path, e.message)], parsed := c.parsed ++ [(path, none)] }
  pure none

/-- Loads a file unless it has been. -/
def load (path : String) : Task (Option LoadedFile) := do
  let w ← get
  match w.caches.parsed.lookup path with
  | some known => pure known
  | none =>
    match project.view.read path with
    | .error e => miss path e
    | .ok text =>
      let parsed := w.parsers.parse path (project.grammar path text)
      modify fun w => { w with parsers := parsed.registry, handed := w.handed ++ [path] }
      say parsed.lines
      match parsed.outline with
      | .error e => miss path e
      | .ok outline =>
        remember fun c => { c with parsed := c.parsed ++ [(path, some (.ofOutline outline))] }
        pure (some (.ofOutline outline))

/-! ## Names -/

/-- The source files of the project. -/
def scopeFiles : Task (List String) := do
  match (← get).caches.scope with
  | some scope => pure scope
  | none =>
    match Discovery.run project.view {} with
    | .error e => throw e
    | .ok found =>
      say (found.lines {})
      remember fun c => { c with scope := some found.files }
      pure found.files

/-- The indexes that class names are looked up in. A supplied index is built with them. -/
def lookupIndexes : Task (List ImportIndex) := do
  match (← get).caches.indexes with
  | some indexes => pure indexes
  | none =>
    let scope ← scopeFiles project
    let prepared := Lookup.prepare project.view scope (← get).supplied
    modify fun w => { w with supplied := prepared.supplied }
    say prepared.lines
    remember fun c => { c with indexes := some prepared.lookup.indexes }
    pure prepared.lookup.indexes

/-- The file that a name in a file stands for. -/
def lookupClass (path name : String) (imports : List Import) : Task (Option String) := do
  let scope ← scopeFiles project
  let indexes ← lookupIndexes project
  pure (Lookup.choose? ⟨scope, indexes⟩ path name imports)

/-! ## Neighbours -/

/-- The files that a file leads to. -/
def forwardNeighbours (path : String) : Task (List String) := do
  match (← get).caches.nextHops.lookup path with
  | some known => pure known
  | none =>
    match ← load project path with
    | none => pure []
    | some file =>
      let imports := file.outline.imports
      let imported := (imports.flatMap (ImportGraph.targetsOf project.view path)).filter (· != path)
      let named := imported.foldl (fun found target => Inheritance.insertName target found) []
      let neighbours ← (ImportGraph.openNames project.view path file).foldlM
        (fun found name => do
          match ← lookupClass project path name imports with
          | some target => pure (Inheritance.insertName target found)
          | none => pure found)
        named
      remember fun c => { c with nextHops := c.nextHops ++ [(path, neighbours)] }
      pure neighbours

/-- Every file that the scope leads to, with the files of the scope that lead to it. -/
def reverseMap : Task (List (String × List String)) := do
  match (← get).caches.reverse with
  | some reverse => pure reverse
  | none =>
    let scope ← scopeFiles project
    let reverse ← scope.foldlM
      (fun reverse source => do
        let targets ← forwardNeighbours project source
        pure (targets.foldl (fun reverse target => ImportIndex.insert target source reverse)
          reverse))
      []
    say [Progress.mappedLine scope.length reverse.length]
    remember fun c => { c with reverse := some reverse }
    pure reverse

/-- The files of the scope that lead to a file. -/
def backwardNeighbours (path : String) : Task (List String) := do
  let reverse ← reverseMap project
  pure (((reverse.find? (·.1 == path)).map (·.2)).getD [])

/-! ## Searches -/

/-- Remembers a visit to a file that could not be loaded, unless the file has been visited before. -/
def lose (visit : Visit) : Task Unit :=
  remember fun c =>
    if c.unreachable.any (·.path == visit.path) then c
    else
      -- every file that could not be loaded has its reason
      let reason := (c.failures.lookup visit.path).getD ""
      { c with unreachable := c.unreachable ++ [⟨visit.path, reason, visit.hop⟩] }

/-- Runs a search to its end. It gives the visits to files that can be loaded. -/
def drain (neighbours : String → Task (List String)) (depth : Nat) (p : Pending)
    (order : List Visit) : Task (List Visit) :=
  match _ : p.due with
  | [] => pure order
  | visit :: due => do
    match ← load project visit.path with
    | none =>
      lose visit
      drain neighbours depth { p with due } order
    | some _ =>
      if _ : visit.hop < depth then
        let found ← neighbours visit.path
        drain neighbours depth (found.foldl (Pending.meet (visit.hop + 1)) { p with due })
          (order ++ [visit])
      else drain neighbours depth { p with due } (order ++ [visit])
termination_by p.reach depth
decreasing_by
  · exact Pending.shrinks_of_due depth ‹_›
  · exact Pending.shrinks_foldl_meet ‹_› ‹_› found
  · exact Pending.shrinks_of_due depth ‹_›

/-! ## Requests -/

/-- What is reported of a placed file. -/
def Caches.fileReport? (c : Caches) (p : Placement) : Option FileReport :=
  match c.parsed.lookup p.path with
  | some (some file) => some (.ofLoaded p file)
  | _ => none

/-- Searches in one direction, if that is wanted. -/
def explore (r : Request.Checked) (isWanted : Bool) (neighbours : String → Task (List String)) :
    Task (List Visit) :=
  if isWanted then drain project neighbours r.depth (.start r.entry) [] else pure []

/-- Searches forward and backward, as far as the request wants it, and reports what was reached. -/
def traverse (r : Request.Checked) : Task Report := do
  let forward ← explore project r r.mode.goesForward (forwardNeighbours project)
  let backward ← explore project r r.mode.goesBackward (backwardNeighbours project)
  let c := (← get).caches
  pure (.assemble (Caches.fileReport? c) r forward backward c.unreachable)

end Operations

/-- What a request leaves: the analyzer, the outcome, what was reported, and the files handed to the
parsers. -/
structure Answer where
  analyzer : Analyzer
  outcome : Except Failure Report
  lines : List Log.Line
  handed : List String

/-- Answers a request. One that is refused leaves the analyzer as it was. -/
def analyze (a : Analyzer) (project : Project) (request : Request) : Answer :=
  match request.check project.view with
  | .error e => ⟨a, .error e, [], []⟩
  | .ok r =>
    match traverse project r { a.reset with lines := [startLine r] } with
    | .ok report w => ⟨w.toAnalyzer, .ok report, w.lines ++ [endLine report], w.handed⟩
    | .error e w => ⟨w.toAnalyzer, .error e, w.lines, w.handed⟩

end Analyzer

end CodeAtlas.Traversal
