import CodeAtlas.Proofs.Parser.Standard
import CodeAtlas.Proofs.Traversal.Parsed

/-!
# Clean sessions

A session keeps parsers, an index if one was supplied, and the outlines of its last traversal. As
long as no index is supplied and the parsers are those of a new session or made by them
(`Session.IsClean`), every traversal finds what it would find in a new session: it forgets the
outlines of the one before it, and all standard parsers parse alike. So clean sessions answer alike
(`Session.outcome_analyze_of_isClean`), and of files in memory they load the same ones
(`Session.loaded_progress_memory`).
-/

namespace CodeAtlas

/-- What reading and parsing a file gives. -/
def Project.outline (project : Project) (path : String) : Except Failure Outline := do
  let text ← project.view.read path
  Outline.ofFile path (project.grammar path text)

namespace Traversal

/-- **A clean session** has no supplied index, and its parsers are as good as new ones. -/
structure Session.IsClean (session : Session) : Prop where
  supplied : session.supplied = none
  parsers : session.parsers.IsStandard

theorem Session.isClean_new : Session.IsClean {} :=
  ⟨rfl, ParserRegistry.isStandard_standard⟩

namespace Progress

variable {project : Project} {p : Progress} {path : String}

/-! ## 1. What is known of a file is what loading it gives -/

/-- **What a session knows of the files loaded** is what reading and parsing them gives, and its parsers
are as good as new ones. -/
structure IsFaithful (project : Project) (p : Progress) : Prop where
  parsers : p.session.parsers.IsStandard
  outcome : ∀ entry ∈ p.session.loaded, entry.2 = project.outline entry.1

namespace IsFaithful

/-- The files loaded determine what is known of them. -/
theorem loaded_eq (h : p.IsFaithful project) :
    p.session.loaded = p.loadedPaths.map fun path => (path, project.outline path) := by
  have hentry : ∀ entry ∈ p.session.loaded, (entry.1, project.outline entry.1) = id entry := by
    intro entry hentry
    rw [← h.outcome entry hentry]
    rfl
  rw [loadedPaths, List.map_map]
  exact ((List.map_congr_left hentry).trans (List.map_id _)).symm

/-- **The outline of a file that was loaded is kept**, if loading the file gives one. -/
theorem outline?_of_mem_loadedPaths (h : p.IsFaithful project) {o : Outline}
    (hcanonical : project.view.canonical path = path) (hloaded : path ∈ p.loadedPaths)
    (houtline : project.outline path = .ok o) :
    p.session.outline? project.view path = some o := by
  rw [Session.outline?, hcanonical]
  cases hfound : p.session.loaded.find? (·.1 == path) with
  | none =>
    obtain ⟨entry, hentry, hpath⟩ := List.mem_map.1 hloaded
    exact absurd (beq_iff_eq.2 hpath) (List.find?_eq_none.1 hfound entry hentry)
  | some entry =>
    have hpath : (entry.1 == path) = true :=
      List.find?_some (p := fun entry : String × Except Failure Outline => entry.1 == path) hfound
    have hkept := h.outcome entry (List.mem_of_find?_eq_some hfound)
    rw [eq_of_beq hpath, houtline] at hkept
    rw [show entry = (entry.1, .ok o) from Prod.ext rfl hkept]

theorem record (h : p.IsFaithful project) {outcome : Except Failure Outline}
    (houtcome : outcome = project.outline path) : (p.record path outcome).IsFaithful project := by
  have hloaded : (p.record path outcome).session
      = { p.session with loaded := p.session.loaded ++ [(path, outcome)] } := by
    cases outcome <;> rfl
  refine ⟨?_, fun entry hentry => ?_⟩
  · rw [hloaded]
    exact h.parsers
  -- the new entry is the last, and all others were there before
  · rw [hloaded] at hentry
    rcases List.mem_append.1 hentry with hentry | hentry
    · exact h.outcome entry hentry
    · rw [List.mem_singleton.1 hentry]
      exact houtcome

theorem load (h : p.IsFaithful project) (path : String) :
    (p.load project path).IsFaithful project := by
  unfold Progress.load
  split
  · exact h
  · cases hread : project.view.read path with
    | error e =>
      refine h.record ?_
      rw [Project.outline, hread]
      rfl
    | ok text =>
      -- a parser may be made for the file now, which the outline does not depend on
      obtain ⟨hregistry, -⟩ := h.parsers.parse path (project.grammar path text)
      have houtline := h.parsers.outline_parse path (project.grammar path text)
      dsimp only
      generalize p.session.parsers.parse path (project.grammar path text) = parsed at *
      have hmoved : IsFaithful project
          (({ p with
                session := { p.session with parsers := parsed.registry }
                parsed := p.parsed ++ [path] } : Progress).say parsed.lines) :=
        ⟨hregistry, h.outcome⟩
      refine hmoved.record ?_
      rw [houtline, Project.outline, hread]
      rfl

/-- **One step stays faithful.** -/
theorem step {found : Except Failure Discovery} {prepared : Lookup.Preparation}
    (h : p.IsFaithful project) (event : Event) :
    (p.step project found prepared event).IsFaithful project := by
  unfold Progress.step
  split
  · exact h
  · cases event with
    | load path => exact h.load path
    | scope =>
      dsimp only [enterScope]
      split
      · exact h
      · split <;> exact ⟨h.parsers, h.outcome⟩
    | lookup =>
      dsimp only [enterLookup]
      split
      · exact h
      · exact ⟨h.parsers, h.outcome⟩
    | mapped => exact ⟨h.parsers, h.outcome⟩

end IsFaithful

/-- Loading a file leaves the supplied index alone. -/
theorem supplied_load (project : Project) (p : Progress) (path : String) :
    (p.load project path).session.supplied = p.session.supplied := by
  unfold load
  split
  · rfl
  · split
    · rfl
    · dsimp only
      generalize p.session.parsers.parse path (project.grammar path _) = parsed
      cases parsed.outline <;> rfl

/-- One step supplies no index, if none comes with the lookup. -/
theorem supplied_step {found : Except Failure Discovery} {prepared : Lookup.Preparation}
    (h : p.session.supplied = none) (hprepared : prepared.supplied = none) (event : Event) :
    (p.step project found prepared event).session.supplied = none := by
  unfold step
  split
  · exact h
  · cases event with
    | load path => exact (supplied_load project p path).trans h
    | scope =>
      dsimp only [enterScope]
      split
      · exact h
      · split <;> exact h
    | lookup =>
      dsimp only [enterLookup]
      split
      · exact h
      · exact hprepared
    | mapped => exact h

end Progress

/-! ## 2. Runs of clean sessions -/

namespace Session

variable {session other : Session} {project : Project}

/-- **A run knows of every file what reading and parsing it gives**, if its parsers are as good as new
ones. -/
theorem isFaithful_progress (h : session.parsers.IsStandard) (project : Project)
    (r : Request.Checked) : (session.progress project r).IsFaithful project := by
  have hstart : Progress.IsFaithful project
      { session := { session with loaded := [] }, lines := [startLine r] } := by
    refine ⟨h, ?_⟩
    intro entry hentry
    exact absurd hentry List.not_mem_nil
  exact List.foldlRecOn _ _ hstart fun _ hp event _ => hp.step event

theorem supplied_progress (h : session.supplied = none) (project : Project) (r : Request.Checked) :
    (session.progress project r).session.supplied = none := by
  have hprepared :
      (Lookup.prepare project.view (scope project) session.supplied).supplied = none := by
    rw [h]
    rfl
  exact List.foldlRecOn (motive := fun p : Progress => p.session.supplied = none) _ _ h
    fun _ hp event _ => Progress.supplied_step hp hprepared event

/-- **A run leaves a clean session clean**, whatever is asked and whatever comes of it. -/
theorem isClean_analyze (h : session.IsClean) (project : Project) (request : Request) :
    (session.analyze project request).session.IsClean := by
  cases hcheck : request.check project.view with
  | error e =>
    rw [analyze_of_refused hcheck]
    exact h
  | ok r =>
    rw [(analyze_of_check _ hcheck).1]
    exact ⟨supplied_progress h.supplied project r, (isFaithful_progress h.parsers project r).parsers⟩

/-- Clean sessions traverse the same graph. -/
theorem graph_eq_of_isClean (h : session.IsClean) (hother : other.IsClean) (project : Project) :
    session.graph project = other.graph project := by
  rw [graph, graph, h.supplied, hother.supplied]

/-- **Clean sessions answer alike.** -/
theorem outcome_analyze_of_isClean (h : session.IsClean) (hother : other.IsClean)
    (project : Project) (request : Request) :
    (session.analyze project request).outcome = (other.analyze project request).outcome := by
  cases hcheck : request.check project.view with
  | error e => rw [outcome_analyze_of_refused hcheck, outcome_analyze_of_refused hcheck]
  | ok r =>
    rw [outcome_analyze_of_check hcheck, outcome_analyze_of_check hcheck,
      graph_eq_of_isClean h hother]

/-! ## 3. Files in memory -/

variable {store : MemoryStore} {grammar : Grammar} {request : Request}

/-- Nothing fails in a traversal of files in memory. -/
theorem failure_progress_memory (session : Session) (store : MemoryStore) (grammar : Grammar)
    (r : Request.Checked) : (session.progress ⟨store.view, grammar⟩ r).failure = none := by
  obtain ⟨found, hfound⟩ := Discovery.exists_run_memory store
  rw [progress]
  dsimp only
  rw [hfound]
  exact Progress.failure_foldl_of_found _ rfl

/-- What a clean session has loaded after a run is what the trace has asked for. -/
theorem loaded_progress_memory (h : session.IsClean) (r : Request.Checked) :
    (session.progress ⟨store.view, grammar⟩ r).session.loaded
      = (askedFor ((session.graph ⟨store.view, grammar⟩).trace r.entry r.mode r.depth)).eraseDups.map
          fun path => (path, Project.outline ⟨store.view, grammar⟩ path) := by
  obtain ⟨done, -, htracks, hall⟩ := exists_tracks_progress session ⟨store.view, grammar⟩ r
  rw [(isFaithful_progress h.parsers _ r).loaded_eq, htracks.loaded,
    hall (failure_progress_memory session store grammar r)]

end Session

end Traversal

end CodeAtlas
