import CodeAtlas.Proofs.Index.Discovery
import CodeAtlas.Traversal.Session

/-!
# What a run answers

A run checks its request, lets the trace of the traversal pass through `Progress.step`, and gives
the report of the graph unless a step has failed. The only step that can fail is the search for the
source files, so a run answers with the report of its graph, or with the failure of that search if
the traversal asks for the scope. `outcome_analyze_of_check` says this without the progress, and
the statements about reports rest on it alone.
-/

namespace CodeAtlas.Traversal

namespace Progress

/-! ## 1. Steps that cannot fail -/

variable (project : Project) (p : Progress)

@[simp] theorem failure_say (lines : List Log.Line) : (p.say lines).failure = p.failure := rfl

@[simp] theorem isScoped_say (lines : List Log.Line) : (p.say lines).isScoped = p.isScoped := rfl

@[simp] theorem failure_record (path : String) (outcome : Except Failure Outline) :
    (p.record path outcome).failure = p.failure := by
  cases outcome <;> rfl

@[simp] theorem isScoped_record (path : String) (outcome : Except Failure Outline) :
    (p.record path outcome).isScoped = p.isScoped := by
  cases outcome <;> rfl

@[simp] theorem failure_load (path : String) : (p.load project path).failure = p.failure := by
  unfold load
  split
  · rfl
  · split <;> simp

@[simp] theorem isScoped_load (path : String) : (p.load project path).isScoped = p.isScoped := by
  unfold load
  split
  · rfl
  · split <;> simp

@[simp] theorem failure_enterLookup (prepared : Lookup.Preparation) :
    (p.enterLookup prepared).failure = p.failure := by
  unfold enterLookup
  split <;> rfl

@[simp] theorem isScoped_enterLookup (prepared : Lookup.Preparation) :
    (p.enterLookup prepared).isScoped = p.isScoped := by
  unfold enterLookup
  split <;> rfl

/-! ## 2. A whole trace -/

variable {project} {p} {prepared : Lookup.Preparation}

/-- Nothing fails where the source files are found. -/
theorem failure_step_of_found {d : Discovery} (event : Event) (h : p.failure = none) :
    (p.step project (.ok d) prepared event).failure = none := by
  unfold step
  rw [h]
  cases event with
  | scope =>
    simp only [Option.isSome_none, Bool.false_eq_true, if_false, enterScope]
    split
    · exact h
    · exact h
  | load | lookup | mapped => simpa using h

theorem failure_foldl_of_found {d : Discovery} (events : List Event) (h : p.failure = none) :
    (events.foldl (step project (.ok d) prepared) p).failure = none := by
  induction events generalizing p with
  | nil => exact h
  | cons event events ih => exact ih (failure_step_of_found event h)

/-- After a failure nothing happens. -/
theorem foldl_of_failure {found : Except Failure Discovery} {e : Failure} (events : List Event)
    (h : p.failure = some e) : events.foldl (step project found prepared) p = p := by
  induction events with
  | nil => rfl
  | cons event events ih =>
    have hstep : p.step project found prepared event = p := by
      unfold step
      rw [h]
      rfl
    rw [List.foldl_cons, hstep, ih]

/-- Where the source files cannot be found, the first request for the scope fails. -/
theorem failure_foldl_of_lost {e : Failure} (events : List Event) (h : p.failure = none)
    (hscope : p.isScoped = false) :
    (events.foldl (step project (.error e) prepared) p).failure
      = if Event.scope ∈ events then some e else none := by
  induction events generalizing p with
  | nil => exact h
  | cons event events ih =>
    rw [List.foldl_cons]
    by_cases hevent : event = .scope
    -- this step fails, and what comes after it does nothing
    · subst hevent
      have hstep : (p.step project (.error e) prepared .scope).failure = some e := by
        simp [step, enterScope, h, hscope]
      rw [foldl_of_failure events hstep, hstep, if_pos List.mem_cons_self]
    · have hstep : (p.step project (.error e) prepared event).failure = none ∧
          (p.step project (.error e) prepared event).isScoped = false := by
        unfold step
        rw [h]
        cases event with
        | scope => exact absurd rfl hevent
        | load | lookup | mapped => simp [h, hscope]
      rw [ih hstep.1 hstep.2]
      simp only [List.mem_cons, Ne.symm hevent, false_or]

end Progress

/-! ## 3. Requests -/

/-- A request with a mode and a depth in the form in which they are given. -/
def Request.of (entry : String) (mode : Mode) (depth : Nat) : Request :=
  { entry, mode := .str mode.name, depth := .int depth }

theorem Mode.ofJson_name (mode : Mode) : Mode.ofJson (.str mode.name) = .ok mode := by
  cases mode <;> rfl

/-- Such a request is good if its entry exists. -/
theorem Request.check_of {view : FileView} {entry : String}
    (h : view.contains (view.canonical entry) = true) (mode : Mode) (depth : Nat) :
    (Request.of entry mode depth).check view = .ok ⟨view.canonical entry, mode, depth⟩ := by
  have hdepth : depthOf (.int depth) = .ok depth := by simp [depthOf]
  simp only [Request.check, Request.of, hdepth, h, Mode.ofJson_name]
  rfl

/-- The entry of a good request is there, under its canonical path. -/
theorem Request.entry_of_check {view : FileView} {request : Request} {r : Request.Checked}
    (h : request.check view = .ok r) :
    r.entry = view.canonical request.entry ∧ view.contains r.entry = true := by
  unfold Request.check at h
  obtain ⟨depth, -, h⟩ := Outcome.exists_of_bind_eq_ok h
  dsimp only at h
  split at h
  · cases h
  · rename_i hcontains
    obtain ⟨mode, -, h⟩ := Outcome.exists_of_bind_eq_ok h
    cases h
    exact ⟨rfl, by simpa using hcontains⟩

/-! ## 4. Runs -/

namespace Session

/-- The source files that a traversal looks names up in, none if they cannot be found. -/
def scope (project : Project) : List String :=
  match Discovery.run project.view {} with
  | .ok found => found.files
  | .error _ => []

/-- **The graph that a session traverses.** -/
def graph (session : Session) (project : Project) : ImportGraph :=
  ⟨project, (Lookup.prepare project.view (scope project) session.supplied).lookup⟩

/-- How far a run for a good request comes. -/
def progress (session : Session) (project : Project) (r : Request.Checked) : Progress :=
  ((session.graph project).trace r.entry r.mode r.depth).foldl
    (Progress.step project (Discovery.run project.view {})
      (Lookup.prepare project.view (scope project) session.supplied))
    { session := { session with loaded := [] }, lines := [startLine r] }

/-- **A run for a good request** leaves what its progress has come to. -/
theorem analyze_eq_of_check (session : Session) {project : Project} {request : Request}
    {r : Request.Checked} (h : request.check project.view = .ok r) :
    session.analyze project request
      = match (session.progress project r).failure with
        | some e => ⟨(session.progress project r).session, .error e,
            (session.progress project r).lines, (session.progress project r).parsed⟩
        | none => ⟨(session.progress project r).session,
            .ok ((session.graph project).report r.entry r.mode r.depth),
            (session.progress project r).lines
              ++ [endLine ((session.graph project).report r.entry r.mode r.depth)],
            (session.progress project r).parsed⟩ := by
  unfold analyze
  rw [h]
  rfl

theorem analyze_of_check (session : Session) {project : Project} {request : Request}
    {r : Request.Checked} (h : request.check project.view = .ok r) :
    (session.analyze project request).session = (session.progress project r).session ∧
      (session.analyze project request).parsed = (session.progress project r).parsed ∧
      (session.analyze project request).outcome
        = match (session.progress project r).failure with
          | some e => .error e
          | none => .ok ((session.graph project).report r.entry r.mode r.depth) := by
  rw [analyze_eq_of_check session h]
  cases (session.progress project r).failure with
  | some e => exact ⟨rfl, rfl, rfl⟩
  | none => exact ⟨rfl, rfl, rfl⟩

/-- What a run gives for a good request. -/
theorem outcome_analyze_of_check {session : Session} {project : Project} {request : Request}
    {r : Request.Checked} (h : request.check project.view = .ok r) :
    (session.analyze project request).outcome
      = match Discovery.run project.view {} with
        | .ok _ => .ok ((session.graph project).report r.entry r.mode r.depth)
        | .error e =>
          if Event.scope ∈ (session.graph project).trace r.entry r.mode r.depth then .error e
          else .ok ((session.graph project).report r.entry r.mode r.depth) := by
  obtain ⟨-, -, houtcome⟩ := analyze_of_check session h
  rw [houtcome, progress]
  cases hfound : Discovery.run project.view {} with
  | ok found =>
    rw [Progress.failure_foldl_of_found _ rfl]
  | error e =>
    rw [Progress.failure_foldl_of_lost _ rfl rfl]
    by_cases hscope : Event.scope ∈ (session.graph project).trace r.entry r.mode r.depth
    · rw [if_pos hscope]
      exact (if_pos hscope).symm
    · rw [if_neg hscope]
      exact (if_neg hscope).symm

theorem outcome_analyze_of (session : Session) {project : Project} {entry : String}
    (h : project.view.contains (project.view.canonical entry) = true) (mode : Mode) (depth : Nat) :
    (session.analyze project (.of entry mode depth)).outcome
      = match Discovery.run project.view {} with
        | .ok _ => .ok ((session.graph project).report (project.view.canonical entry) mode depth)
        | .error e =>
          if Event.scope ∈
              (session.graph project).trace (project.view.canonical entry) mode depth then .error e
          else .ok ((session.graph project).report (project.view.canonical entry) mode depth) :=
  outcome_analyze_of_check (Request.check_of h mode depth)

/-- A request that is refused leaves nothing but the reason. -/
theorem analyze_of_refused {session : Session} {project : Project} {request : Request}
    {e : Failure} (h : request.check project.view = .error e) :
    session.analyze project request = ⟨session, .error e, [], []⟩ := by
  unfold analyze
  rw [h]

/-- A request that is refused is answered with the reason. -/
theorem outcome_analyze_of_refused {session : Session} {project : Project} {request : Request}
    {e : Failure} (h : request.check project.view = .error e) :
    (session.analyze project request).outcome = .error e := by
  rw [analyze_of_refused h]

/-! ## 5. Answers -/

/-- **A run answers with a report of some kind**, or with the reason why the source files of the
project cannot be listed. -/
def Answers (session : Session) (project : Project) (request : Request) (P : Report → Prop) :
    Prop :=
  match (session.analyze project request).outcome with
  | .ok report => P report
  | .error e => ∃ pattern ∈ DiscoveryOptions.allSources, project.view.list pattern = .error e

/-- What follows from an answer is answered. -/
theorem Answers.imp {session : Session} {project : Project} {request : Request}
    {P Q : Report → Prop} (h : session.Answers project request P)
    (hPQ : ∀ report, P report → Q report) : session.Answers project request Q := by
  unfold Answers at h ⊢
  split
  · rename_i report hreport
    rw [hreport] at h
    exact hPQ report h
  · rename_i e herror
    rw [herror] at h
    exact h

/-- What holds of the report of the graph is answered. -/
theorem answers_of {session : Session} {project : Project} {entry : String} {mode : Mode}
    {depth : Nat} {P : Report → Prop}
    (h : project.view.contains (project.view.canonical entry) = true)
    (hP : P ((session.graph project).report (project.view.canonical entry) mode depth)) :
    session.Answers project (.of entry mode depth) P := by
  rw [Answers, outcome_analyze_of session h mode depth]
  cases hfound : Discovery.run project.view {} with
  | ok found => exact hP
  | error e =>
    dsimp only
    split
    · rename_i report hok
      split at hok
      · cases hok
      · cases hok
        exact hP
    · rename_i e' herr
      split at herr
      · cases herr
        exact Discovery.exists_list_error hfound
      · cases herr

/-- Where the source files can be listed, the answer is a report. -/
theorem Answers.exists_report {session : Session} {project : Project} {request : Request}
    {P : Report → Prop} (h : session.Answers project request P)
    (hlist : ∀ pattern ∈ DiscoveryOptions.allSources, ∃ paths,
      project.view.list pattern = .ok paths) :
    ∃ report, (session.analyze project request).outcome = .ok report ∧ P report := by
  unfold Answers at h
  split at h
  · rename_i report hreport
    exact ⟨report, hreport, h⟩
  · obtain ⟨pattern, hpattern, herror⟩ := h
    obtain ⟨paths, hpaths⟩ := hlist pattern hpattern
    cases herror.symm.trans hpaths

/-- Of files in memory a traversal always tells. -/
theorem Answers.exists_report_memory {session : Session} {store : MemoryStore} {grammar : Grammar}
    {request : Request} {P : Report → Prop} (h : session.Answers ⟨store.view, grammar⟩ request P) :
    ∃ report, (session.analyze ⟨store.view, grammar⟩ request).outcome = .ok report ∧ P report :=
  h.exists_report fun _ => Discovery.exists_list_memory store

/-- Where the source files are found, the answer is the report of the graph. -/
theorem outcome_analyze_of_found {session : Session} {project : Project} {entry : String}
    {found : Discovery} (h : project.view.contains (project.view.canonical entry) = true)
    (hfound : Discovery.run project.view {} = .ok found) (mode : Mode) (depth : Nat) :
    (session.analyze project (.of entry mode depth)).outcome
      = .ok ((session.graph project).report (project.view.canonical entry) mode depth) := by
  rw [outcome_analyze_of session h mode depth, hfound]

end Session

/-! ## 6. A project of two files -/

/-- A grammar engine that takes the whole text of a file for the module of its one import. -/
def singleImport : Grammar := fun _ text =>
  let label (kind : String) (field : Option String) : Syntax.Label :=
    { id := 0, kind, field, isNamed := true, isError := false, isMissing := false, hasError := false
      start := 0, stop := 0, line := 1, text }
  .node (label "program" none)
    [.node (label "import_statement" none) [.node (label "string" (some "source")) []]]

/-- Two files that import each other. -/
def mutualImports : Project :=
  { view := (MemoryStore.ofFiles "/" [("/a.ts", "./b"), ("/b.ts", "./a")]).view
    grammar := singleImport }

end CodeAtlas.Traversal
