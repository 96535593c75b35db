import CodeAtlas.Sequence.Analyzer
import CodeAtlas.Traversal.Session

/-!
# Sequence diagrams of several files

The diagrams of the files of a traversal put together, file by file: the interactions one after the
other, and the participants and entry points, each once. One analyzer draws them all, from the
outlines that the traversal has kept.
-/

namespace CodeAtlas

/-- The sequence diagram of the files of a traversal. -/
structure MergedSequence where
  entry : String
  mode : Traversal.Mode
  depth : Nat
  files : List String
  participants : List Participant
  interactions : List Interaction
  entryPoints : List String
  unreachable : List Traversal.UnreachableFile
  deriving Repr, Inhabited

/-- What tells a participant from those of all files. -/
def Participant.key (p : Participant) : String × String :=
  (p.name, p.path)

namespace MergedSequence

/-- The diagram of a traversal before any of its files. -/
def ofReport (report : Traversal.Report) : MergedSequence :=
  { entry := report.entry
    mode := report.mode
    depth := report.depth
    files := []
    participants := []
    interactions := []
    entryPoints := []
    unreachable := report.unreachable }

/-- The participants with one more, unless there is one of its key. -/
def insertParticipant (participants : List Participant) (p : Participant) : List Participant :=
  if participants.any (·.key == p.key) then participants else participants ++ [p]

/-- The diagram with that of one more file. -/
def addFile (merged : MergedSequence) (path : String) (report : SequenceReport) :
    MergedSequence :=
  { merged with
    files := merged.files ++ [path]
    participants := report.participants.foldl insertParticipant merged.participants
    interactions := merged.interactions ++ report.interactions
    entryPoints := report.entryPoints.foldl (fun names name => Inheritance.insertName name names)
      merged.entryPoints }

/-- What is reported of the diagram of one file. -/
def fileLine (path : String) (report : SequenceReport) : Log.Line :=
  let count := report.interactions.length
  ⟨.debug, s!"[CrossFileSequenceAnalyzer] {path}: {count} interactions"⟩

/-- What is reported of the whole diagram. -/
def endLine (merged : MergedSequence) : Log.Line :=
  let entry := merged.entry
  let files := merged.files.length
  let participants := merged.participants.length
  let interactions := merged.interactions.length
  ⟨.info, s!"[CrossFileSequenceAnalyzer] {entry}: {files} files, {participants} participants, " ++
    s!"{interactions} interactions"⟩

end MergedSequence

/-- A merge under way: the analyzer that all files share, what is merged and what is reported. -/
structure SequenceMerge where
  analyzer : SequenceAnalyzer
  merged : MergedSequence
  lines : List Log.Line := []

/-- Analyzes a file whose outline has been kept, and adds its diagram. -/
def SequenceMerge.addPath (outline? : String → Option Outline) (m : SequenceMerge)
    (path : String) : SequenceMerge :=
  match outline? path with
  | none => m
  | some o =>
    let (analyzer, report) := m.analyzer.analyze o
    { analyzer
      merged := m.merged.addFile path report
      lines := m.lines ++ [MergedSequence.fileLine path report] }

namespace Traversal.Session

/-- Traverses a project and puts the sequence diagrams of the files together, with an analyzer that
may have been used before. It is left as the last file leaves it. -/
def analyzeSequenceWith (analyzer : SequenceAnalyzer) (session : Session) (project : Project)
    (request : Request) : SequenceAnalyzer × Run MergedSequence :=
  let run := session.analyze project request
  match run.outcome with
  | .error e => (analyzer, ⟨run.session, .error e, run.lines, run.parsed⟩)
  | .ok report =>
    let m := report.paths.foldl (SequenceMerge.addPath (run.session.outline? project.view))
      { analyzer, merged := .ofReport report }
    (m.analyzer,
      ⟨run.session, .ok m.merged, run.lines ++ m.lines ++ [m.merged.endLine], run.parsed⟩)

/-- Traverses a project and puts the sequence diagrams of the files together. -/
def analyzeSequence (session : Session) (project : Project) (request : Request) :
    Run MergedSequence :=
  (session.analyzeSequenceWith {} project request).2

end Traversal.Session

end CodeAtlas
