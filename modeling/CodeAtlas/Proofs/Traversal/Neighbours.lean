import CodeAtlas.Proofs.Traversal.Operation

/-!
# The neighbours of a file

What a file leads to is found name by name, and remembered under the file. A file that stands there
has been loaded, and the lookup that its names need is there (`enterAll_of_known`), so no event is
left out when the answer comes from the cache (`simulates_forwardNeighbours`). The files that lead to
a file are read off the reverse of the edges, which is made once (`simulates_reverseMap`).
-/

namespace CodeAtlas.Traversal

namespace Analyzer

variable {session : Session} {project : Project} {path : String}

/-! ## 1. Forward -/

/-- The names of a file stand for files, each once. -/
theorem foldl_choose (graph : ImportGraph) (path : String) (file : LoadedFile) :
    (ImportGraph.openNames graph.project.view path file).foldl
        (fun found name =>
          match graph.lookup.choose? path name file.outline.imports with
          | some target => Inheritance.insertName target found
          | none => found)
        (((file.outline.imports.flatMap (ImportGraph.targetsOf graph.project.view path)).filter
          (· != path)).foldl (fun found target => Inheritance.insertName target found) [])
      = graph.nextOf path file := by
  have hnamed := Inheritance.foldl_insertName []
    ((file.outline.imports.flatMap (ImportGraph.targetsOf graph.project.view path)).filter (· != path))
  rw [List.eraseDups_nil, List.nil_append] at hnamed
  rw [hnamed, ImportGraph.nextOf, ← Inheritance.foldl_insertName, List.foldl_filterMap]
  refine congrArg (fun step => List.foldl step _ _) ?_
  funext found name
  cases graph.lookup.choose? path name file.outline.imports with
  | none => rfl
  | some target => rfl

/-- What finding the neighbours of a file asks for, as deeds. -/
def stepDeeds (graph : ImportGraph) (path : String) : List Deed :=
  (graph.stepTrace path).map .ask

/-- Looking up some names asks for the lookup, if there are any. -/
theorem enterAll_flatMap_lookup {w : Work} {a : Account} (h : Agrees session project w a)
    (names : List String) :
    a.enterAll session project (names.flatMap fun _ => [.ask .scope, .ask .lookup])
      = a.enterAll session project (if names.isEmpty then [] else [.ask .scope, .ask .lookup]) := by
  cases names with
  | nil => rfl
  | cons name names =>
    have hsame := advance_lookup_lookup session project h.going
    have honce : (a.enterAll session project [.ask .scope, .ask .lookup]).enterAll session project
        [.ask .scope, .ask .lookup] = a.enterAll session project [.ask .scope, .ask .lookup] :=
      congrArg (fun p => { a with progress := p }) hsame
    rw [List.flatMap_cons, Account.enterAll_append, List.isEmpty_cons, if_neg Bool.false_ne_true]
    induction names with
    | nil => rfl
    | cons other names ih => rw [List.flatMap_cons, Account.enterAll_append, honce, ih]

section StepTrace

variable {graph : ImportGraph} {file : LoadedFile}

theorem stepTrace_of_ok (h : graph.project.load path = .ok file) :
    graph.stepTrace path
      = if (ImportGraph.openNames graph.project.view path file).isEmpty then []
        else [.scope, .lookup] := by
  rw [ImportGraph.stepTrace, h]

theorem stepTrace_of_error {e : Failure} (h : graph.project.load path = .error e) :
    graph.stepTrace path = [] := by
  rw [ImportGraph.stepTrace, h]

/-- A step that asks for something asks for the scope and the lookup. -/
theorem stepTrace_of_ne_nil (h : graph.stepTrace path ≠ []) :
    graph.stepTrace path = [.scope, .lookup] := by
  cases hload : graph.project.load path with
  | error e => exact absurd (stepTrace_of_error hload) h
  | ok file =>
    rw [stepTrace_of_ok hload] at h ⊢
    exact if_neg fun hnone => h (if_pos hnone)

end StepTrace

/-- A file whose neighbours are known has been loaded, and the lookup that it needs is there. -/
theorem enterAll_of_known {w : Work} {a : Account} (h : Agrees session project w a)
    {entry : String × List String} (hentry : entry ∈ w.caches.nextHops) :
    a.enterAll session project
        (.ask (.load entry.1) :: stepDeeds (session.graph project) entry.1) = a := by
  obtain ⟨hloaded, hindexed, -⟩ := h.nextHops entry hentry
  have hload : advance session project a.progress [.load entry.1] = a.progress :=
    (advance_load session h.going entry.1).trans (Progress.load_of_mem hloaded)
  have hfirst : a.enter session project (.ask (.load entry.1)) = a :=
    congrArg (fun p => { a with progress := p }) hload
  have hsplit : a.enterAll session project
        (.ask (.load entry.1) :: stepDeeds (session.graph project) entry.1)
      = (a.enter session project (.ask (.load entry.1))).enterAll session project
          (stepDeeds (session.graph project) entry.1) := rfl
  rw [hsplit, hfirst, stepDeeds]
  by_cases hstep : (session.graph project).stepTrace entry.1 = []
  · rw [hstep]
    rfl
  · have hprepared := advance_of_isIndexed session project h.going (h.isScoped (hindexed hstep))
      (hindexed hstep)
    rw [stepTrace_of_ne_nil hstep]
    exact congrArg (fun p => { a with progress := p }) hprepared

/-- The files that a loaded file leads to, found name by name. -/
def collect (project : Project) (path : String) (file : LoadedFile) : Task (List String) :=
  (ImportGraph.openNames project.view path file).foldlM
    (fun found name => do
      match ← lookupClass project path name file.outline.imports with
      | some target => pure (Inheritance.insertName target found)
      | none => pure found)
    (((file.outline.imports.flatMap (ImportGraph.targetsOf project.view path)).filter
      (· != path)).foldl (fun found target => Inheritance.insertName target found) [])

theorem forwardNeighbours_eq (path : String) (w : Work) :
    forwardNeighbours project path w
      = match w.caches.nextHops.lookup path with
        | some known => .ok known w
        | none => (load project path >>= fun loaded =>
          match loaded with
          | none => pure []
          | some file => collect project path file >>= fun found w' =>
            .ok found { w' with
              caches := { w'.caches with
                nextHops := w'.caches.nextHops ++ [(path, found)] } } : Task _) w := by
  rw [forwardNeighbours, get_bind]
  cases w.caches.nextHops.lookup path with
  | some known => rfl
  | none => rfl

/-- Collecting what a file leads to asks for the lookup, if a name is looked up. -/
theorem simulates_collect {file : LoadedFile}
    (hload : (session.graph project).project.load path = .ok file) :
    Simulates session project (collect project path file)
      (stepDeeds (session.graph project) path) ((session.graph project).next path) := by
  have hdeeds : stepDeeds (session.graph project) path
      = if (ImportGraph.openNames project.view path file).isEmpty then []
        else [.ask .scope, .ask .lookup] := by
    rw [stepDeeds, stepTrace_of_ok hload, apply_ite (List.map Deed.ask)]
    rfl
  have hfold : Simulates session project (collect project path file)
      ((ImportGraph.openNames project.view path file).flatMap fun _ => [.ask .scope, .ask .lookup])
      ((session.graph project).nextOf path file) := by
    rw [← foldl_choose]
    refine simulates_foldlM (fun found name _ => ?_) _
    refine (simulates_lookupClass path name file.outline.imports).bind ?_
    cases (session.graph project).lookup.choose? path name file.outline.imports with
    | none => exact simulates_pure found
    | some target => exact simulates_pure _
  rw [ImportGraph.next_of_ok hload, hdeeds]
  exact hfold.of_deeds fun w a h => (enterAll_flatMap_lookup h _).symm

/-- What has been loaded stays so. -/
theorem loadedPaths_advance (session : Session) (project : Project) {p : Progress}
    (h : path ∈ p.loadedPaths) (events : List Event) :
    path ∈ (advance session project p events).loadedPaths := by
  induction events generalizing p with
  | nil => exact h
  | cons event events ih =>
    refine ih ?_
    unfold Progress.step
    split
    · exact h
    · cases event with
      | load other =>
        dsimp only
        by_cases hother : other ∈ p.loadedPaths
        · rwa [Progress.load_of_mem hother]
        · rw [(Progress.load_of_notMem project hother).1]
          exact List.mem_append_left _ h
      | scope =>
        dsimp only
        rwa [(Progress.loadedPaths_enterScope _ p).1]
      | lookup =>
        dsimp only
        rwa [(Progress.loadedPaths_enterLookup _ p).1]
      | mapped => exact h

/-- A file that has been asked for has been loaded. -/
theorem mem_loadedPaths_advance_load (session : Session) (project : Project) {p : Progress}
    (h : p.failure = none) (path : String) (events : List Event) :
    path ∈ (advance session project p (.load path :: events)).loadedPaths := by
  have hload : path ∈ (advance session project p [.load path]).loadedPaths := by
    rw [advance_load session h]
    by_cases hmem : path ∈ p.loadedPaths
    · rwa [Progress.load_of_mem hmem]
    · rw [(Progress.load_of_notMem project hmem).1]
      exact List.mem_append_right _ (List.mem_singleton_self path)
  exact loadedPaths_advance session project hload events

/-- Unless that fails, the lookup is prepared when it has been asked for. -/
theorem isIndexed_advance_lookup {p : Progress}
    (h : (advance session project p [.scope, .lookup]).failure = none) :
    (advance session project p [.scope, .lookup]).isIndexed = true := by
  rw [advance_cons p .scope [.lookup]] at h ⊢
  cases hscope : (advance session project p [.scope]).failure with
  | some e =>
    rw [advance_of_failure hscope, hscope] at h
    cases h
  | none =>
    rw [advance_lookup session hscope]
    exact isIndexed_enterLookup _ _

/-- The caches still agree when the neighbours of a file are known. -/
theorem Agrees.learned {w : Work} {a : Account} (h : Agrees session project w a)
    (hloaded : path ∈ a.progress.loadedPaths)
    (hindexed : (session.graph project).stepTrace path ≠ [] → a.progress.isIndexed = true) :
    Agrees session project
      { w with
        caches := { w.caches with
          nextHops := w.caches.nextHops ++ [(path, (session.graph project).next path)] } } a :=
  { h with
    nextHops := by
      intro entry hentry
      rcases List.mem_append.1 hentry with hentry | hentry
      · exact h.nextHops entry hentry
      · rw [List.mem_singleton.1 hentry]
        exact ⟨hloaded, hindexed, rfl⟩ }

/-- **Asking for the files that a file leads to** gives what the graph gives. -/
theorem simulates_forwardNeighbours (path : String) :
    Simulates session project (forwardNeighbours project path)
      (.ask (.load path) :: stepDeeds (session.graph project) path)
      ((session.graph project).next path) := by
  intro w a h
  rw [forwardNeighbours_eq]
  cases hknown : w.caches.nextHops.lookup path with
  -- an answer from the cache asks for nothing, and nothing is left to be asked for
  | some known =>
    obtain ⟨before, after, hsplit, -⟩ := List.lookup_eq_some_iff.1 hknown
    have hentry : (path, known) ∈ w.caches.nextHops := by
      rw [hsplit]
      exact List.mem_append_right _ List.mem_cons_self
    rw [enterAll_of_known h hentry]
    exact ⟨(h.nextHops _ hentry).2.2, h⟩
  | none =>
    refine (simulates_load path w a h).bind_enterAll (stepDeeds (session.graph project) path)
      fun w' h' => ?_
    cases hload : project.load path with
    -- the neighbours of a lost file are not remembered, and asked for they are none again
    | error e =>
      have hgraph : (session.graph project).project.load path = .error e := hload
      rw [ImportGraph.next_of_error hgraph, stepDeeds, stepTrace_of_error hgraph]
      exact ⟨rfl, h'⟩
    | ok file =>
      refine (simulates_collect hload w' _ h').bind_enterAll [] fun w'' h'' => ⟨rfl, ?_⟩
      have hdeeds : (a.enterAll session project [.ask (.load path)]).enterAll session project
            (stepDeeds (session.graph project) path)
          = { a with
              progress := advance session project a.progress
                (.load path :: (session.graph project).stepTrace path) } :=
        a.enterAll_asks (.load path :: (session.graph project).stepTrace path)
      rw [hdeeds] at h''
      change Agrees session project _ ((a.enterAll session project [.ask (.load path)]).enterAll
        session project (stepDeeds (session.graph project) path))
      rw [hdeeds]
      refine h''.learned (mem_loadedPaths_advance_load session project h.going path _) fun hstep => ?_
      have hgoing := h''.going
      rw [stepTrace_of_ne_nil hstep] at hgoing ⊢
      exact isIndexed_advance_lookup hgoing

/-! ## 2. Backward -/

/-- The files of the scope entered under the files that they lead to, one by one. -/
def collectReverse (project : Project) (scope : List String) :
    Task (List (String × List String)) :=
  scope.foldlM
    (fun reverse source => do
      let targets ← forwardNeighbours project source
      pure (targets.foldl (fun reverse target => ImportIndex.insert target source reverse) reverse))
    []

theorem reverseMap_eq (w : Work) :
    reverseMap project w
      = match w.caches.reverse with
        | some reverse => .ok reverse w
        | none => (scopeFiles project >>= fun scope =>
          collectReverse project scope >>= fun reverse w' =>
          .ok reverse { w' with
            lines := w'.lines ++ [Progress.mappedLine scope.length reverse.length]
            caches := { w'.caches with reverse := some reverse } } : Task _) w := by
  rw [reverseMap, get_bind]
  cases w.caches.reverse with
  | some reverse => rfl
  | none => rfl

theorem advance_mapped (session : Session) {p : Progress} (h : p.failure = none)
    (files targets : Nat) :
    advance session project p [.mapped files targets]
      = p.say [Progress.mappedLine files targets] := by
  simp [advance, Progress.step, h]

/-- Entering the files of the scope asks for each of them, and for what its step asks for. -/
theorem simulates_collectReverse (session : Session) (project : Project) (scope : List String) :
    Simulates session project (collectReverse project scope)
      ((scope.flatMap fun path => .load path :: (session.graph project).stepTrace path).map .ask)
      (Traversal.reverse (session.graph project).next scope) := by
  rw [List.map_flatMap]
  refine simulates_foldlM (fun reverse source _ => ?_) _
  exact (simulates_forwardNeighbours source).map fun targets =>
    targets.foldl (fun reverse target => ImportIndex.insert target source reverse) reverse

theorem edgesTrace_eq (session : Session) (project : Project) :
    (session.graph project).edgesTrace
      = .scope :: (Session.scope project).flatMap
          (fun path => .load path :: (session.graph project).stepTrace path) ++
        [.mapped (Session.scope project).length
          (Traversal.reverse (session.graph project).next (Session.scope project)).length] := by
  rw [ImportGraph.edgesTrace, ← ImportGraph.length_reverse_scope, Session.scope_lookup_graph]

/-- **Asking for the reverse of the edges** finds the edges, unless they are known. -/
theorem simulates_reverseMap :
    Simulates session project (reverseMap project) [.reverse]
      (Traversal.reverse (session.graph project).next (Session.scope project)) := by
  intro w a h
  have hmapped := h.isMapped
  rw [reverseMap_eq]
  cases hreverse : w.caches.reverse with
  -- the edges were found with the reverse that is known
  | some map =>
    rw [hreverse] at hmapped
    have hdeed : a.enterAll session project [.reverse] = a := if_pos hmapped
    rw [hdeed]
    exact ⟨h.reverse map hreverse, h⟩
  | none =>
    rw [hreverse] at hmapped
    have hdeed : a.enterAll session project [.reverse]
        = { a with
            progress := advance session project a.progress (session.graph project).edgesTrace
            isMapped := true } := if_neg (by simp [hmapped])
    rw [hdeed, edgesTrace_eq]
    -- where a part fails, the later events of the trace do not pass
    refine (simulates_scopeFiles w a h).bind (fun w' h' => ?_) fun e hfailure =>
      advance_of_failure hfailure _
    have hfiles := simulates_collectReverse session project (Session.scope project) w' _ h'
    rw [Account.enterAll_asks] at hfiles
    refine hfiles.bind (fun w'' h'' => ⟨rfl, ?_⟩) fun e hfailure => ?_
    · replace h'' : Agrees session project w''
          { a with
            progress := advance session project a.progress (.scope :: (Session.scope project).flatMap
              fun path => .load path :: (session.graph project).stepTrace path) } := h''
      rw [advance_append, advance_mapped session h''.going]
      exact
        { h'' with
          lines := congrArg (· ++ _) h''.lines
          isMapped := rfl
          reverse := fun map hmap => (Option.mem_some.1 hmap).symm }
    · rw [advance_append]
      exact advance_of_failure hfailure _

/-- **Asking for the files that lead to a file** gives what the graph gives. -/
theorem simulates_backwardNeighbours (path : String) :
    Simulates session project (backwardNeighbours project path) [.reverse]
      ((session.graph project).previous path) := by
  have hscope := session.scope_lookup_graph project
  have hnodup : (session.graph project).lookup.scope.Nodup :=
    hscope.symm ▸ Session.nodup_scope project
  rw [← ImportGraph.filesIn_reverse_scope _ hnodup, hscope]
  exact simulates_reverseMap.map fun reverse => ImportIndex.filesIn reverse path

end Analyzer

end CodeAtlas.Traversal
