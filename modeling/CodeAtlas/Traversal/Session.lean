import CodeAtlas.Traversal.Trace

/-!
# Sessions

A session runs traversals of one project. It keeps the parsers, which are made when they are first
needed, and an index that the caller may supply; of the last traversal it keeps the files loaded.
During a traversal every file is loaded once at most, and the scope and the lookup are prepared
once, when they are first asked for. A traversal fails if it needs the scope and that cannot be
found. What it hands to the parsers is recorded as it goes.
-/

namespace CodeAtlas.Traversal

/-- What lasts from one traversal to the next. -/
structure Session where
  parsers : ParserRegistry := .standard
  /-- The index that the caller supplied. -/
  supplied : Option ImportIndex := none
  /-- The files that the last traversal asked for, in that order, with what loading them gave. -/
  loaded : List (String × Except Failure Outline) := []
  deriving Inhabited

namespace Session

/-- The outline of a file that the last traversal loaded. -/
def outline? (session : Session) (view : FileView) (path : String) : Option Outline :=
  match session.loaded.find? (·.1 == view.canonical path) with
  | some (_, .ok outline) => some outline
  | _ => none

end Session

/-! ## Progress -/

/-- How far a traversal has come. -/
structure Progress where
  session : Session
  /-- Whether the scope is known. -/
  isScoped : Bool := false
  /-- Whether the lookup is prepared. -/
  isIndexed : Bool := false
  /-- The files handed to the parsers, in that order. -/
  parsed : List String := []
  /-- What has been reported. -/
  lines : List Log.Line := []
  /-- Why the traversal cannot go on. -/
  failure : Option Failure := none
  deriving Inhabited

namespace Progress

/-- More lines reported. -/
def say (p : Progress) (lines : List Log.Line) : Progress :=
  { p with lines := p.lines ++ lines }

/-- What is reported of a file that cannot be loaded. -/
def skipLine (path : String) (e : Failure) : Log.Line :=
  let cause := e.message
  ⟨.debug, s!"[CrossFileAnalyzer] Skipping {path}: {cause}"⟩

/-- A file that was asked for. -/
def record (p : Progress) (path : String) (outcome : Except Failure Outline) : Progress :=
  let session := { p.session with loaded := p.session.loaded ++ [(path, outcome)] }
  match outcome with
  | .ok _ => { p with session }
  | .error e => { p with session }.say [skipLine path e]

/-- Loads a file unless it has been. -/
def load (project : Project) (p : Progress) (path : String) : Progress :=
  if p.session.loaded.any (·.1 == path) then p
  else
    match project.view.read path with
    | .error e => p.record path (.error e)
    | .ok text =>
      let parsed := p.session.parsers.parse path (project.grammar path text)
      let session := { p.session with parsers := parsed.registry }
      ({ p with session, parsed := p.parsed ++ [path] }.say parsed.lines).record path parsed.outline

/-- Finds the scope unless it is known. -/
def enterScope (found : Except Failure Discovery) (p : Progress) : Progress :=
  if p.isScoped then p
  else
    match found with
    | .ok found => { p with isScoped := true }.say (found.lines {})
    | .error e => { p with failure := some e }

/-- Takes the prepared lookup into use unless it is. -/
def enterLookup (prepared : Lookup.Preparation) (p : Progress) : Progress :=
  if p.isIndexed then p
  else
    let session := { p.session with supplied := prepared.supplied }
    { p with isIndexed := true, session }.say prepared.lines

/-- What is reported when the edges of the scope are known. -/
def mappedLine (files targets : Nat) : Log.Line :=
  ⟨.debug,
    s!"[CrossFileAnalyzer] Reverse map built from {files} files ({targets} referenced files)"⟩

/-- Does what an event asks for. After a failure nothing is done. -/
def step (project : Project) (found : Except Failure Discovery) (prepared : Lookup.Preparation)
    (p : Progress) (event : Event) : Progress :=
  if p.failure.isSome then p
  else
    match event with
    | .load path => p.load project path
    | .scope => p.enterScope found
    | .lookup => p.enterLookup prepared
    | .mapped files targets => p.say [mappedLine files targets]

end Progress

/-! ## Runs -/

/-- What a traversal leaves: the session, the outcome, what was reported, and the files handed to
the parsers. -/
structure Run (α : Type) where
  session : Session
  outcome : Except Failure α
  lines : List Log.Line
  parsed : List String

/-- Checks a request: first the depth, then that the entry exists, then the mode. -/
def Request.check (view : FileView) (request : Request) : Except Failure Request.Checked := do
  let depth ← depthOf request.depth
  let entry := view.canonical request.entry
  if !view.contains entry then throw (.fileNotFound request.entry)
  let mode ← Mode.ofJson request.mode
  pure { entry, mode, depth }

/-- What is reported when a traversal starts. -/
def startLine (r : Request.Checked) : Log.Line :=
  let entry := r.entry
  let mode := r.mode.name
  let depth := r.depth
  ⟨.debug, s!"[CrossFileAnalyzer] Analyzing {entry} ({mode}, depth={depth})"⟩

/-- What is reported when a traversal has come to its end. -/
def endLine (report : Report) : Log.Line :=
  let entry := report.entry
  let files := report.files.length
  let classes := report.classes.length
  let relations := report.relations.length
  ⟨.info,
    s!"[CrossFileAnalyzer] {entry}: {files} files, {classes} classes, {relations} relationships"⟩

namespace Session

/-- Traverses a project. A request that is refused leaves the session as it was. -/
def analyze (session : Session) (project : Project) (request : Request) : Run Report :=
  match request.check project.view with
  | .error e => ⟨session, .error e, [], []⟩
  | .ok r =>
    let found := Discovery.run project.view {}
    let scope := match found with
      | .ok found => found.files
      | .error _ => []
    let prepared := Lookup.prepare project.view scope session.supplied
    let graph : ImportGraph := ⟨project, prepared.lookup⟩
    let start : Progress := { session := { session with loaded := [] }, lines := [startLine r] }
    let p := (graph.trace r.entry r.mode r.depth).foldl (Progress.step project found prepared) start
    match p.failure with
    | some e => ⟨p.session, .error e, p.lines, p.parsed⟩
    | none =>
      let report := graph.report r.entry r.mode r.depth
      ⟨p.session, .ok report, p.lines ++ [endLine report], p.parsed⟩

end Session

end CodeAtlas.Traversal
