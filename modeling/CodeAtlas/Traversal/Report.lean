import CodeAtlas.Traversal.Search

/-!
# Traversal reports

What a traversal tells: every file it reached with what it declares, and the classes, relationships
and inheritance of all of them, each once. Files that could not be loaded are listed apart.
-/

namespace CodeAtlas.Traversal

/-- A file of a traversal. -/
structure FileReport where
  path : String
  language : Language
  classes : List ClassDecl
  imports : List Import
  exports : List Export
  relations : List Relation
  inheritance : Inheritance
  hop : Nat
  direction : Direction
  deriving Repr, Inhabited

/-- A file that a traversal reached but could not load. -/
structure UnreachableFile where
  path : String
  reason : String
  hop : Nat
  deriving DecidableEq, Repr, Inhabited

/-- The outcome of a traversal. -/
structure Report where
  entry : String
  mode : Mode
  depth : Nat
  /-- The files reached, the nearest first. -/
  files : List FileReport
  /-- The classes of the files. -/
  classes : List ClassDecl
  /-- The relationships of the files. -/
  relations : List Relation
  inheritance : Inheritance
  /-- The files reached forward, without the entry. -/
  forwardFiles : List String
  /-- The files reached backward, without the entry. -/
  backwardFiles : List String
  unreachable : List UnreachableFile
  deriving Repr, Inhabited

namespace Report

/-- The largest number of hops to a file. -/
def maxHop (report : Report) : Nat :=
  (report.files.map (·.hop)).foldl max 0

/-- The paths of the files. -/
def paths (report : Report) : List String :=
  report.files.map (·.path)

/-- How much a report holds. -/
structure Totals where
  files : Nat
  classes : Nat
  relations : Nat
  /-- The largest number of hops to a file. -/
  maxHop : Nat
  deriving DecidableEq, Repr, Inhabited

/-- The totals of a report. -/
def totals (report : Report) : Totals :=
  { files := report.files.length
    classes := report.classes.length
    relations := report.relations.length
    maxHop := report.maxHop }

end Report

/-! ## Merging -/

/-- The items of a list, of those with one key the first. -/
def firstByKey {α κ : Type} [BEq κ] (key : α → κ) (items : List α) : List α :=
  items.eraseDupsBy fun a b => key a == key b

/-- What tells a class of a file from all others. A class without a file belongs to the one that
it was found in. -/
def classKey (path : String) (c : ClassDecl) : String × String :=
  (if c.path.isEmpty then path else c.path, c.name)

/-- The classes of some files, each once. -/
def mergedClasses (files : List FileReport) : List ClassDecl :=
  (firstByKey (·.1) (files.flatMap fun f => f.classes.map fun c => (classKey f.path c, c))).map
    (·.2)

/-- The relationships of some files, each once. -/
def mergedRelations (files : List FileReport) : List Relation :=
  firstByKey Relation.key (files.flatMap (·.relations))

/-- The inheritance of some files. -/
def mergedInheritance (files : List FileReport) : Inheritance :=
  files.foldl (fun map f => map.merge f.inheritance) []

/-! ## Assembly -/

/-- What is reported of a placed file, given what loading it has given. -/
def FileReport.ofLoaded (p : Placement) (file : LoadedFile) : FileReport :=
  { path := p.path, language := file.outline.language, classes := file.outline.classes
    imports := file.outline.imports, exports := file.outline.exports
    relations := file.report.relations, inheritance := file.report.inheritance
    hop := p.hop, direction := p.direction }

/-- The paths of some visits, without the entry. -/
def beyond (found : List Visit) : List String :=
  (found.filter (0 < ·.hop)).map (·.path)

/-- The report of the files that two searches have reached, given what is reported of each. -/
def Report.assemble (fileReport? : Placement → Option FileReport) (r : Request.Checked)
    (forward backward : List Visit) (unreachable : List UnreachableFile) : Report :=
  let files := (Placement.ofVisits forward backward).filterMap fileReport?
  { entry := r.entry, mode := r.mode, depth := r.depth, files
    classes := mergedClasses files
    relations := mergedRelations files
    inheritance := mergedInheritance files
    forwardFiles := beyond forward
    backwardFiles := beyond backward
    unreachable }

namespace ImportGraph

/-- What is reported of a placed file. -/
def fileReport? (graph : ImportGraph) (p : Placement) : Option FileReport :=
  match graph.project.load p.path with
  | .ok file => some (.ofLoaded p file)
  | .error _ => none

/-- The visits to files that cannot be loaded. -/
def unreachableFiles (graph : ImportGraph) (found : List Visit) : List UnreachableFile :=
  found.filterMap fun visit =>
    match graph.project.load visit.path with
    | .ok _ => none
    | .error e => some { path := visit.path, reason := e.message, hop := visit.hop }

/-- The report of a traversal. -/
def report (graph : ImportGraph) (entry : String) (mode : Mode) (depth : Nat) : Report :=
  let forward := if mode.goesForward then graph.forwardVisits depth entry else []
  let backward := if mode.goesBackward then graph.backwardVisits depth entry else []
  Report.assemble graph.fileReport? ⟨entry, mode, depth⟩ (graph.reached forward)
    (graph.reached backward) (firstByKey (·.path) (graph.unreachableFiles (forward ++ backward)))

end ImportGraph

end CodeAtlas.Traversal
