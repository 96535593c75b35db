import CodeAtlas.Proofs.Traversal.Report
import CodeAtlas.Proofs.Traversal.Run
import CodeAtlas.Proofs.Traversal.Scope

/-!
# Every file is parsed once at most

A trace asks for the same file again and again. `Progress.Tracks` says what has come of the files
asked for so far: each has been loaded once, in the order in which they were first asked for, and
those that could be read have been handed to the parsers. Every step keeps this
(`Tracks.step`), and so does a run, whether it fails or not (`exists_tracks_foldl`).
-/

namespace CodeAtlas

/-- Whether a file can be read. -/
def FileView.isReadable (view : FileView) (path : String) : Bool :=
  (view.read path).toOption.isSome

namespace Traversal

/-- The file that an event asks for. -/
def Event.asked? : Event → Option String
  | .load path => some path
  | _ => none

/-- The files that some events ask for, in that order. -/
def askedFor (events : List Event) : List String :=
  events.filterMap Event.asked?

theorem mem_askedFor {events : List Event} {path : String} :
    path ∈ askedFor events ↔ .load path ∈ events := by
  rw [askedFor, List.mem_filterMap]
  constructor
  · rintro ⟨event, hevent, hasked⟩
    cases event with
    | load other =>
      cases hasked
      exact hevent
    | scope | lookup | mapped => cases hasked
  · exact fun h => ⟨_, h, rfl⟩

namespace Progress

variable {project : Project} {p : Progress} {asked : List String} {path : String}

/-! ## 1. What a step leaves as it is -/

/-- The files loaded so far. -/
def loadedPaths (p : Progress) : List String :=
  p.session.loaded.map (·.1)

theorem loadedPaths_record (p : Progress) (path : String)
    (outcome : Except Failure Outline) :
    (p.record path outcome).loadedPaths = p.loadedPaths ++ [path] := by
  cases outcome <;> exact List.map_append

theorem parsed_record (p : Progress) (path : String) (outcome : Except Failure Outline) :
    (p.record path outcome).parsed = p.parsed := by
  cases outcome <;> rfl

theorem loadedPaths_enterScope (found : Except Failure Discovery) (p : Progress) :
    (p.enterScope found).loadedPaths = p.loadedPaths ∧ (p.enterScope found).parsed = p.parsed := by
  unfold enterScope
  split
  · exact ⟨rfl, rfl⟩
  · split <;> exact ⟨rfl, rfl⟩

theorem loadedPaths_enterLookup (prepared : Lookup.Preparation) (p : Progress) :
    (p.enterLookup prepared).loadedPaths = p.loadedPaths ∧
      (p.enterLookup prepared).parsed = p.parsed := by
  unfold enterLookup
  split <;> exact ⟨rfl, rfl⟩

/-! ## 2. Loading -/

theorem any_loaded_iff : p.session.loaded.any (·.1 == path) = true ↔ path ∈ p.loadedPaths := by
  rw [List.any_eq_true, loadedPaths, List.mem_map]
  exact exists_congr fun entry => and_congr_right fun _ => beq_iff_eq

theorem load_of_mem (h : path ∈ p.loadedPaths) : p.load project path = p := by
  rw [load, if_pos (any_loaded_iff.2 h)]

/-- **A file that is new is loaded**, and handed to the parsers if it can be read. -/
theorem load_of_notMem (project : Project) (h : path ∉ p.loadedPaths) :
    (p.load project path).loadedPaths = p.loadedPaths ++ [path] ∧
      (p.load project path).parsed
        = p.parsed ++ [path].filter project.view.isReadable := by
  rw [load, if_neg (mt any_loaded_iff.1 h)]
  cases hread : project.view.read path with
  | error e =>
    have hlost : project.view.isReadable path = false := by rw [FileView.isReadable, hread]; rfl
    rw [List.filter_singleton, hlost]
    exact ⟨loadedPaths_record p path _, by rw [parsed_record, cond_false, List.append_nil]⟩
  | ok text =>
    have hfound : project.view.isReadable path = true := by rw [FileView.isReadable, hread]; rfl
    rw [List.filter_singleton, hfound]
    exact ⟨loadedPaths_record _ path _, parsed_record _ path _⟩

/-! ## 3. The invariant -/

/-- **What has come of the files asked for**: each has been loaded once, in the order in which they
were first asked for, and of these the readable ones have been handed to the parsers. -/
structure Tracks (view : FileView) (asked : List String) (p : Progress) : Prop where
  loaded : p.loadedPaths = asked.eraseDups
  parsed : p.parsed = asked.eraseDups.filter view.isReadable

namespace Tracks

theorem load (h : p.Tracks project.view asked) (path : String) :
    (p.load project path).Tracks project.view (asked ++ [path]) := by
  by_cases hasked : path ∈ asked
  -- what has been asked for is loaded, readable or not
  · have hmem : path ∈ p.loadedPaths := by rwa [h.loaded, List.mem_eraseDups]
    rw [load_of_mem hmem]
    exact ⟨by rw [h.loaded, eraseDups_concat_of_mem hasked],
      by rw [h.parsed, eraseDups_concat_of_mem hasked]⟩
  · have hnew : path ∉ p.loadedPaths := by rwa [h.loaded, List.mem_eraseDups]
    obtain ⟨hloaded, hparsed⟩ := load_of_notMem project hnew
    exact ⟨by rw [hloaded, h.loaded, eraseDups_concat_of_notMem hasked],
      by rw [hparsed, h.parsed, eraseDups_concat_of_notMem hasked, List.filter_append]⟩

/-- **One step keeps the invariant**, with the file that it asks for. -/
theorem step (h : p.Tracks project.view asked) (hgoing : p.failure = none)
    (found : Except Failure Discovery) (prepared : Lookup.Preparation) (event : Event) :
    (p.step project found prepared event).Tracks project.view
      (asked ++ askedFor [event]) := by
  -- all events but one ask for no file
  have hstep : ∀ q : Progress, q.loadedPaths = p.loadedPaths → q.parsed = p.parsed →
      q.Tracks project.view (asked ++ []) := by
    intro q hloaded hparsed
    rw [List.append_nil]
    exact ⟨hloaded.trans h.loaded, hparsed.trans h.parsed⟩
  unfold Progress.step
  rw [hgoing]
  cases event with
  | load path => exact h.load path
  | scope =>
    obtain ⟨hloaded, hparsed⟩ := loadedPaths_enterScope found p
    exact hstep _ hloaded hparsed
  | lookup =>
    obtain ⟨hloaded, hparsed⟩ := loadedPaths_enterLookup prepared p
    exact hstep _ hloaded hparsed
  | mapped => exact hstep _ rfl rfl

end Tracks

/-- **A run keeps the invariant.** What it has come to is that of the events up to a failure, and of
all if it does not fail. -/
theorem exists_tracks_foldl {found : Except Failure Discovery} {prepared : Lookup.Preparation}
    (h : p.Tracks project.view asked) (hgoing : p.failure = none) (events : List Event) :
    ∃ done, done <+: events ∧
      (events.foldl (step project found prepared) p).Tracks project.view (asked ++ askedFor done) ∧
      ((events.foldl (step project found prepared) p).failure = none → done = events) := by
  induction events generalizing p asked with
  | nil =>
    refine ⟨[], List.nil_prefix, ?_, fun _ => rfl⟩
    rwa [askedFor, List.filterMap_nil, List.append_nil]
  | cons event events ih =>
    have hstep := h.step hgoing found prepared event
    rw [List.foldl_cons]
    cases hfailure : (p.step project found prepared event).failure with
    | some e =>
      -- the rest of the events is not looked at
      rw [foldl_of_failure events hfailure]
      refine ⟨[event], ⟨events, rfl⟩, hstep, ?_⟩
      intro hnone
      cases hfailure.symm.trans hnone
    | none =>
      obtain ⟨done, hdone, htracks, hall⟩ := ih hstep hfailure
      have hasked : askedFor (event :: done) = askedFor [event] ++ askedFor done :=
        List.filterMap_append (l := [event])
      refine ⟨event :: done, (List.prefix_cons_inj event).2 hdone, ?_, ?_⟩
      · rwa [hasked, ← List.append_assoc]
      · intro hnone
        rw [hall hnone]

end Progress

/-! ## 4. What a trace asks for -/

namespace ImportGraph

variable {graph : ImportGraph} {entry : String} {mode : Mode} {depth : Nat}

/-- **A trace asks for every file that is reported.** -/
theorem load_mem_trace_of_mem_files {f : FileReport}
    (h : f ∈ (graph.report entry mode depth).files) :
    Event.load f.path ∈ graph.trace entry mode depth := by
  rw [trace, List.mem_append]
  rcases exists_visit_of_mem_files h with ⟨v, hv, hpath⟩ | ⟨v, hv, hpath⟩
  · obtain ⟨hforward, hvisit⟩ := mem_visits_of_mem_forwardReached hv
    rw [if_pos hforward, ← hpath]
    exact Or.inl (List.mem_flatMap.2 ⟨v, hvisit, List.mem_cons_self⟩)
  · obtain ⟨hbackward, hvisit⟩ := mem_visits_of_mem_backwardReached hv
    rw [if_pos hbackward, ← hpath]
    exact Or.inr (List.mem_append_right _ (List.mem_map.2 ⟨v, hvisit, rfl⟩))

/-- A file that is reported can be read. -/
theorem isReadable_of_mem_files {f : FileReport}
    (h : f ∈ (graph.report entry mode depth).files) :
    graph.project.view.isReadable f.path = true := by
  have hloadable : graph.project.isLoadable f.path = true := by
    rcases exists_visit_of_mem_files h with ⟨v, hv, hpath⟩ | ⟨v, hv, hpath⟩
    · exact hpath ▸ (mem_reached.1 hv).2
    · exact hpath ▸ (mem_reached.1 hv).2
  obtain ⟨file, hload⟩ := isLoadable_iff.1 hloadable
  obtain ⟨text, -, hread, -⟩ := exists_of_load hload
  rw [FileView.isReadable, hread]
  rfl

end ImportGraph

/-! ## 5. Runs -/

namespace Session

/-- A run hands the files that it asks for to the parsers. -/
theorem exists_tracks_progress (session : Session) (project : Project) (r : Request.Checked) :
    ∃ done, done <+: (session.graph project).trace r.entry r.mode r.depth ∧
      (session.progress project r).Tracks project.view (askedFor done) ∧
      ((session.progress project r).failure = none →
        done = (session.graph project).trace r.entry r.mode r.depth) := by
  have hstart : Progress.Tracks project.view []
      { session := { session with loaded := [] }, lines := [startLine r] } := ⟨rfl, rfl⟩
  exact Progress.exists_tracks_foldl hstart rfl _

/-- A good request leads to no file but under its canonical path. -/
theorem canonical_of_load_mem_trace (session : Session) {project : Project} {request : Request}
    {r : Request.Checked} (hcheck : request.check project.view = .ok r)
    (hlaw : project.view.Lawful) {path : String}
    (h : .load path ∈ (session.graph project).trace r.entry r.mode r.depth) :
    project.view.canonical path = path := by
  have hstays : (session.graph project).StaysIn fun path => project.view.canonical path = path :=
    staysIn_graph session hlaw fun path _ => hlaw.canonical_canonical path
  have hentry : project.view.canonical r.entry = r.entry := by
    rw [(Request.entry_of_check hcheck).1, hlaw.canonical_canonical]
  exact hstays.of_mem_trace hentry h

/-- What a run reports has been handed to the parsers. -/
theorem mem_parsed_progress {session : Session} {project : Project} {r : Request.Checked}
    (h : (session.progress project r).failure = none) {f : FileReport}
    (hf : f ∈ ((session.graph project).report r.entry r.mode r.depth).files) :
    f.path ∈ (session.progress project r).parsed := by
  obtain ⟨done, -, htracks, hall⟩ := exists_tracks_progress session project r
  have hasked : f.path ∈ askedFor done := by
    rw [hall h, mem_askedFor]
    exact ImportGraph.load_mem_trace_of_mem_files hf
  rw [htracks.parsed, List.mem_filter]
  exact ⟨List.mem_eraseDups.2 hasked, ImportGraph.isReadable_of_mem_files hf⟩

/-- **Every file is parsed once at most**, under one spelling of its path, and of the files that are
reported none is left out. -/
theorem nodup_parsed_analyze (session : Session) (project : Project) (request : Request) :
    (session.analyze project request).parsed.Nodup ∧
      (project.view.Lawful →
        ((session.analyze project request).parsed.map project.view.canonical).Nodup) ∧
      ∀ report, (session.analyze project request).outcome = .ok report →
        ∀ f ∈ report.files, f.path ∈ (session.analyze project request).parsed := by
  cases hcheck : request.check project.view with
  | error e =>
    rw [analyze_of_refused hcheck]
    exact ⟨List.nodup_nil, fun _ => List.nodup_nil, fun report hok => by cases hok⟩
  | ok r =>
    obtain ⟨-, hparsed, houtcome⟩ := analyze_of_check session hcheck
    obtain ⟨done, hdone, htracks, -⟩ := exists_tracks_progress session project r
    rw [hparsed, houtcome]
    have hnodup : (session.progress project r).parsed.Nodup := by
      rw [htracks.parsed]
      exact (nodup_eraseDups _).filter _
    refine ⟨hnodup, ?_, ?_⟩
    · intro hlaw
      have hcanonical : ∀ path ∈ (session.progress project r).parsed,
          project.view.canonical path = id path := by
        intro path hpath
        rw [htracks.parsed] at hpath
        have hasked := List.mem_eraseDups.1 (List.mem_of_mem_filter hpath)
        exact canonical_of_load_mem_trace session hcheck hlaw
          (hdone.subset (mem_askedFor.1 hasked))
      rwa [List.map_congr_left hcanonical, List.map_id]
    · intro report hok f hf
      cases hfailure : (session.progress project r).failure with
      | some e =>
        rw [hfailure] at hok
        cases hok
      | none =>
        rw [hfailure] at hok
        cases hok
        exact mem_parsed_progress hfailure hf

end Session

end Traversal

end CodeAtlas
