import CodeAtlas.Proofs.Dedup
import CodeAtlas.Proofs.Outline.Place
import CodeAtlas.Proofs.Sequence.Analyzer
import CodeAtlas.Proofs.Traversal.Contents
import CodeAtlas.Proofs.Traversal.Clean
import CodeAtlas.Sequence.Merge

/-!
# Merging loses nothing

Merging goes through the files of a traversal with one analyzer, takes the outlines that the
traversal has kept, and drops participants that are there already. None ever is: a file names each
of its participants once, and the files have different paths. So the merged diagram is the diagrams
that new analyzers draw, one after the other (`Traversal.Session.analyzeSequence_concatenates`).
-/

namespace CodeAtlas

/-! ## 1. Adding what is new -/

namespace MergedSequence

/-- **Participants whose keys differ are all taken over**, in their order. -/
theorem foldl_insertParticipant {before items : List Participant}
    (h : ((before ++ items).map Participant.key).Nodup) :
    items.foldl insertParticipant before = before ++ items := by
  induction items generalizing before with
  | nil => rw [List.foldl_nil, List.append_nil]
  | cons p items ih =>
    have hnew : ¬ before.any (·.key == p.key) = true := by
      intro hany
      obtain ⟨q, hq, hkey⟩ := List.any_eq_true.1 hany
      rw [List.map_append, List.nodup_append] at h
      exact h.2.2 q.key (List.mem_map_of_mem hq) p.key
        (List.mem_map_of_mem List.mem_cons_self) (eq_of_beq hkey)
    rw [List.append_cons] at h
    rw [List.foldl_cons, insertParticipant, if_neg hnew, ih h, List.append_cons before p items]

end MergedSequence

/-! ## 2. File by file -/

/-- **A run of the merge** takes the files whose outlines are kept, and draws each as a new analyzer
would. -/
theorem SequenceMerge.merged_foldl_addPath (outline? : String → Option Outline)
    (paths : List String) (m : SequenceMerge) :
    (paths.foldl (addPath outline?) m).merged =
      let reports := (paths.filterMap outline?).map SequenceReport.ofOutline
      { m.merged with
        files := m.merged.files ++ paths.filter fun path => (outline? path).isSome
        participants := (reports.flatMap (·.participants)).foldl
          MergedSequence.insertParticipant m.merged.participants
        interactions := m.merged.interactions ++ reports.flatMap (·.interactions)
        entryPoints := (reports.flatMap (·.entryPoints)).foldl
          (fun names name => Inheritance.insertName name names) m.merged.entryPoints } := by
  induction paths generalizing m with
  | nil => simp
  | cons path paths ih =>
    rw [List.foldl_cons, ih]
    -- a file without an outline is passed over
    cases houtline : outline? path with
    | none =>
      have hskipped : m.addPath outline? path = m := by rw [addPath, houtline]
      rw [hskipped, List.filterMap_cons_none houtline, List.filter_cons_of_neg (by simp [houtline])]
    | some o =>
      have hadded : (m.addPath outline? path).merged
          = m.merged.addFile path (SequenceReport.ofOutline o) := by
        rw [addPath, houtline, ← m.analyzer.report_analyze o]
      rw [hadded, List.filterMap_cons_some houtline, List.filter_cons_of_pos (by simp [houtline])]
      simp only [MergedSequence.addFile, List.map_cons, List.flatMap_cons, List.foldl_append,
        List.append_assoc, List.singleton_append]

/-! ## 3. Nothing is there already -/

/-- **The participants of files with different paths have different keys.** -/
theorem SequenceReport.nodup_keys_flatMap {outlines : List Outline}
    (h : (outlines.map (·.path)).Nodup) :
    ((outlines.flatMap fun o => (ofOutline o).participants).map Participant.key).Nodup := by
  rw [List.map_flatMap, List.nodup_flatMap]
  constructor
  · intro o _
    -- names alone differ within a file
    have hnames := (joins_ofOutline o).nodup_names
    refine List.Nodup.of_map Prod.fst ?_
    rwa [List.map_map]
  · refine (List.pairwise_map.1 h).imp fun {a b} hab => ?_
    intro key ha hb
    obtain ⟨p, hp, rfl⟩ := List.mem_map.1 ha
    obtain ⟨q, hq, hkey⟩ := List.mem_map.1 hb
    refine hab ?_
    rw [← (isAt_ofOutline a).1 p hp, ← (isAt_ofOutline b).1 q hq]
    exact (congrArg Prod.snd hkey).symm

/-- **A merged diagram is the diagrams of some files, one after the other**, of the files of a report.
Each is what a new analyzer draws of the outline of its file, and all of it carries the path of that
file. Only entry points that were there before are left out. -/
structure MergedSequence.Concatenates (merged : MergedSequence) (report : Traversal.Report)
    (outlines : List Outline) : Prop where
  entry : merged.entry = report.entry
  mode : merged.mode = report.mode
  depth : merged.depth = report.depth
  files : merged.files = report.paths
  unreachable : merged.unreachable = report.unreachable
  paths : outlines.map (·.path) = report.paths
  participants : merged.participants
    = outlines.flatMap fun o => (SequenceAnalyzer.analyze {} o).2.participants
  interactions : merged.interactions
    = outlines.flatMap fun o => (SequenceAnalyzer.analyze {} o).2.interactions
  entryPoints : merged.entryPoints
    = (outlines.flatMap fun o => (SequenceAnalyzer.analyze {} o).2.entryPoints).eraseDups
  participant_path : ∀ o ∈ outlines,
    ∀ p ∈ (SequenceAnalyzer.analyze {} o).2.participants, p.path = o.path
  interaction_path : ∀ o ∈ outlines,
    ∀ i ∈ (SequenceAnalyzer.analyze {} o).2.interactions, i.path = o.path

section Kept

variable {outline? : String → Option Outline} {paths : List String}

/-- The outlines of some files, where each is kept, are the outlines of these files, in their
order. -/
theorem map_path_filterMap (hkept : ∀ path ∈ paths, ∃ o, outline? path = some o ∧ o.path = path) :
    (paths.filterMap outline?).map (·.path) = paths := by
  have hself : paths.filterMap (fun path => (outline? path).map (·.path))
      = paths.filterMap some := by
    refine List.filterMap_congr fun path hpath => ?_
    obtain ⟨o, houtline, hpath⟩ := hkept path hpath
    rw [houtline, Option.map_some, hpath]
  rw [List.map_filterMap, hself, List.filterMap_some]

theorem filter_isSome_of_kept
    (hkept : ∀ path ∈ paths, ∃ o, outline? path = some o ∧ o.path = path) :
    (paths.filter fun path => (outline? path).isSome) = paths := by
  refine List.filter_eq_self.2 fun path hpath => ?_
  obtain ⟨o, houtline, -⟩ := hkept path hpath
  rw [houtline]
  rfl

end Kept

/-- A merge of all files of a report concatenates their diagrams. -/
theorem SequenceMerge.concatenates_foldl_addPath {outline? : String → Option Outline}
    {report : Traversal.Report} (hnodup : report.paths.Nodup)
    (hkept : ∀ path ∈ report.paths, ∃ o, outline? path = some o ∧ o.path = path)
    (analyzer : SequenceAnalyzer) :
    (report.paths.foldl (addPath outline?) { analyzer, merged := .ofReport report }).merged
      |>.Concatenates report (report.paths.filterMap outline?) := by
  have hpaths := map_path_filterMap hkept
  have hfresh : ∀ o, (SequenceAnalyzer.analyze {} o).2 = SequenceReport.ofOutline o :=
    SequenceAnalyzer.report_analyze {}
  rw [merged_foldl_addPath, filter_isSome_of_kept hkept]
  refine
    { entry := rfl
      mode := rfl
      depth := rfl
      files := rfl
      unreachable := rfl
      paths := hpaths
      participants := ?_
      interactions := ?_
      entryPoints := ?_
      participant_path := fun o _ p hp => ?_
      interaction_path := fun o _ i hi => ?_ }
  · have hkeys := SequenceReport.nodup_keys_flatMap (hpaths ▸ hnodup)
    simp only [hfresh, List.flatMap_map, MergedSequence.ofReport]
    exact MergedSequence.foldl_insertParticipant hkeys
  · simp only [hfresh, List.flatMap_map, MergedSequence.ofReport, List.nil_append]
  · simp only [hfresh, List.flatMap_map, MergedSequence.ofReport]
    exact Inheritance.foldl_insertName [] _
  · rw [hfresh] at hp
    exact (SequenceReport.isAt_ofOutline o).1 p hp
  · rw [hfresh] at hi
    exact (SequenceReport.isAt_ofOutline o).2 i hi

namespace Traversal

/-! ## 4. Outlines that are kept -/

/-- The outlines that a run has kept of the files of a report, in the order of the report. -/
def Run.outlines {α : Type} (run : Run α) (view : FileView) (report : Report) : List Outline :=
  report.paths.filterMap (run.session.outline? view)

namespace Session

variable {session : Session} {project : Project} {request : Request}

/-- **The outline of every file that is reported is kept**, as reading and parsing the file gives
it. -/
theorem exists_outline?_of_mem_files (hparsers : session.parsers.IsStandard)
    (hlaw : project.view.Lawful) {report : Report}
    (hok : (session.analyze project request).outcome = .ok report) {f : FileReport}
    (hf : f ∈ report.files) :
    ∃ o, (session.analyze project request).session.outline? project.view f.path = some o ∧
      project.outline f.path = .ok o ∧ o.path = f.path := by
  obtain ⟨r, hcheck, rfl⟩ := exists_report_of_analyze hok
  obtain ⟨hsession, -, houtcome⟩ := analyze_of_check session hcheck
  obtain ⟨done, -, htracks, hall⟩ := exists_tracks_progress session project r
  have hgoing : (session.progress project r).failure = none := by
    rw [houtcome] at hok
    split at hok
    · cases hok
    · assumption
  -- a traversal that does not fail loads all that it asks for, the files of the report among them
  have hload := ImportGraph.load_mem_trace_of_mem_files hf
  have hcanonical := canonical_of_load_mem_trace session hcheck hlaw hload
  have hloaded : f.path ∈ (session.progress project r).loadedPaths := by
    rw [htracks.loaded, List.mem_eraseDups, hall hgoing]
    exact mem_askedFor.2 hload
  obtain ⟨file, hfile, -⟩ := ImportGraph.exists_load_of_mem_files hf
  obtain ⟨text, o, hread, hparse, -⟩ := exists_of_load hfile
  have houtline : project.outline f.path = .ok o := by
    rw [Project.outline, show project.view.read f.path = .ok text from hread]
    exact hparse
  refine ⟨o, ?_, houtline, Outline.path_of_ofFile hparse⟩
  rw [hsession]
  exact (isFaithful_progress hparsers project r).outline?_of_mem_loadedPaths hcanonical hloaded
    houtline

/-! ## 5. Runs -/

/-- **Merging loses nothing.** A run that draws the sequences of a project fails where the traversal
fails. Else it lists the files of the traversal and those out of reach, and draws of every file, from
its own outline, what a new analyzer draws of it, whatever its analyzer has been used for. -/
theorem analyzeSequence_concatenates (hparsers : session.parsers.IsStandard)
    (hlaw : project.view.Lawful) (analyzer : SequenceAnalyzer) (request : Request) :
    (∀ e, (session.analyze project request).outcome = .error e →
      (session.analyzeSequenceWith analyzer project request).2.outcome = .error e) ∧
    ∀ report, (session.analyze project request).outcome = .ok report →
      (∀ o ∈ (session.analyze project request).outlines project.view report,
        project.outline o.path = .ok o) ∧
      ∃ merged, (session.analyzeSequenceWith analyzer project request).2.outcome = .ok merged ∧
        merged.Concatenates report
          ((session.analyze project request).outlines project.view report) := by
  constructor
  · intro e herror
    rw [analyzeSequenceWith, herror]
  · intro report hok
    have hkept : ∀ path ∈ report.paths, ∃ o,
        (session.analyze project request).session.outline? project.view path = some o ∧
          project.outline path = .ok o ∧ o.path = path := by
      intro path hpath
      obtain ⟨f, hf, rfl⟩ := List.mem_map.1 hpath
      exact exists_outline?_of_mem_files hparsers hlaw hok hf
    have hnodup : report.paths.Nodup := (isDigest_analyze hok).nodup_paths
    refine ⟨fun o ho => ?_, ?_⟩
    · obtain ⟨path, hpath, hfound⟩ := List.mem_filterMap.1 ho
      obtain ⟨o', hfound', houtline, rfl⟩ := hkept path hpath
      rw [Option.some.inj (hfound.symm.trans hfound')]
      exact houtline
    · rw [analyzeSequenceWith, hok]
      refine ⟨_, rfl, SequenceMerge.concatenates_foldl_addPath hnodup (fun path hpath => ?_) analyzer⟩
      obtain ⟨o, hfound, -, hpath⟩ := hkept path hpath
      exact ⟨o, hfound, hpath⟩

theorem analyzeSequence_concatenates_mutualImports :
    (Session.parsers {}).IsStandard ∧ mutualImports.view.Lawful ∧
      ∃ report merged,
        (Session.analyze {} mutualImports (.of "/a.ts" .forward 1)).outcome = .ok report ∧
        (Session.analyzeSequenceWith {} {} mutualImports (.of "/a.ts" .forward 1)).2.outcome
          = .ok merged ∧
        "/a.ts" ∈ merged.files ∧
        merged.Concatenates report
          ((Session.analyze {} mutualImports (.of "/a.ts" .forward 1)).outlines mutualImports.view
            report) := by
  have hparsers : (Session.parsers {}).IsStandard := ParserRegistry.isStandard_standard
  have hlaw : mutualImports.view.Lawful := (MemoryStore.isKeyed_ofFiles _ _).lawful_view
  have hcontains : mutualImports.view.contains (mutualImports.view.canonical "/a.ts") = true := by
    decide +kernel
  have hcanonical : mutualImports.view.canonical "/a.ts" = "/a.ts" := by decide +kernel
  obtain ⟨found, hfound⟩ : ∃ found, Discovery.run mutualImports.view {} = .ok found :=
    Discovery.exists_run_memory _
  have hok : (Session.analyze {} mutualImports (.of "/a.ts" .forward 1)).outcome
      = .ok ((Session.graph {} mutualImports).report (mutualImports.view.canonical "/a.ts")
        .forward 1) :=
    outcome_analyze_of_found hcontains hfound .forward 1
  obtain ⟨-, merged, hmerged, hconcatenates⟩ :=
    (analyzeSequence_concatenates hparsers hlaw {} (.of "/a.ts" .forward 1)).2 _ hok
  refine ⟨hparsers, hlaw, _, merged, hok, hmerged, ?_, hconcatenates⟩
  have hloadable : (Session.graph {} mutualImports).project.isLoadable "/a.ts" = true := by
    decide +kernel
  obtain ⟨f, hf, hpath, -⟩ :=
    ImportGraph.lists_forward.2 ⟨hloadable, Nat.zero_le 1, IsDistance.self "/a.ts"⟩
  rw [hconcatenates.files, hcanonical]
  exact List.mem_map.2 ⟨f, hf, hpath⟩

end Session

end Traversal

end CodeAtlas
