import CodeAtlas.Proofs.Traversal.Simulation

/-!
# Loading files and looking up names

The first operations of an analyzer. Loading a file gives what the project gives, and the file is
remembered with it (`simulates_load`). The scope and the indexes are found when they are first asked
for. In the account of a traversal that is where the events for them pass; every later request is one
of the events that change nothing (`advance_scope_scope`, `advance_lookup_lookup`).
-/

namespace CodeAtlas.Traversal

namespace Analyzer

variable {session : Session} {project : Project} {path : String}

/-! ## 1. Loading -/

/-- What is looked up in a table made of its keys. -/
theorem lookup_map_key {α : Type} (f : String → α) (paths : List String) (path : String) :
    (paths.map fun path => (path, f path)).lookup path
      = if path ∈ paths then some (f path) else none := by
  induction paths with
  | nil => rfl
  | cons first paths ih =>
    rw [List.map_cons, List.lookup_cons]
    by_cases h : path = first
    · subst h
      simp
    · rw [beq_false_of_ne h, ih]
      simp [h]

/-- Loading a file gives what reading and parsing it gives. -/
theorem load_eq_map_outline (project : Project) (path : String) :
    project.load path = (project.outline path).map LoadedFile.ofOutline := by
  unfold Project.load Project.outline
  cases project.view.read path with
  | error e => rfl
  | ok text =>
    cases houtline : Outline.ofFile path (project.grammar path text) with
    | error e => simp only [bind, Except.bind, houtline]; rfl
    | ok outline => simp only [bind, Except.bind, houtline]; rfl

/-- A file that cannot be loaded is remembered with the reason. -/
theorem miss_eq (path : String) (e : Failure) (w : Work) :
    miss path e w = .ok none
      { w with
        lines := w.lines ++ [Progress.skipLine path e]
        caches := { w.caches with
          failures := w.caches.failures ++ [(path, e.message)]
          parsed := w.caches.parsed ++ [(path, none)] } } := rfl

/-- A file that has been asked for before is not loaded again. -/
theorem load_of_known {w : Work} {known : Option LoadedFile}
    (h : w.caches.parsed.lookup path = some known) : load project path w = .ok known w := by
  rw [load, get_bind, h]
  rfl

/-- A file that cannot be read is not handed to the parsers. -/
theorem load_of_unread {w : Work} {e : Failure} (h : w.caches.parsed.lookup path = none)
    (hread : project.view.read path = .error e) : load project path w = miss path e w := by
  rw [load, get_bind, h, hread]

/-- A file that can be read is handed to the parsers. -/
theorem load_of_read {w : Work} {text : String} (h : w.caches.parsed.lookup path = none)
    (hread : project.view.read path = .ok text) :
    load project path w
      = (match (w.parsers.parse path (project.grammar path text)).outline with
        | .error e => miss path e
        | .ok outline => do
          remember fun c => { c with parsed := c.parsed ++ [(path, some (.ofOutline outline))] }
          pure (some (.ofOutline outline)) : Task (Option LoadedFile))
        { w with
          parsers := (w.parsers.parse path (project.grammar path text)).registry
          handed := w.handed ++ [path]
          lines := w.lines ++ (w.parsers.parse path (project.grammar path text)).lines } := by
  rw [load, get_bind, h, hread]
  rfl

/-- The work with one more file, for which these parsers were used. -/
def Work.loaded (w : Work) (project : Project) (path : String) (parsers : ParserRegistry)
    (handed : List String) (lines : List Log.Line) : Work :=
  { w with
    parsers
    handed := w.handed ++ handed
    lines := w.lines ++ lines
    caches := { w.caches with
      parsed := w.caches.parsed ++ [(path, (project.load path).toOption)]
      failures := w.caches.failures ++ (failure? project path).toList } }

/-- The progress with one more file. -/
def loadedAs (p : Progress) (project : Project) (path : String) (parsers : ParserRegistry)
    (handed : List String) (lines : List Log.Line) : Progress :=
  { p with
    session := { p.session with
      parsers
      loaded := p.session.loaded ++ [(path, project.outline path)] }
    parsed := p.parsed ++ handed
    lines := p.lines ++ lines }

/-- **A file that is new is loaded in the same way** by the work and by the run of the session. -/
theorem exists_load {w : Work} {p : Progress} (hparsers : w.parsers = p.session.parsers)
    (hstandard : w.parsers.IsStandard) (hlookup : w.caches.parsed.lookup path = none)
    (hnew : path ∉ p.loadedPaths) :
    ∃ parsers handed lines, parsers.IsStandard ∧
      load project path w
        = .ok (project.load path).toOption (w.loaded project path parsers handed lines) ∧
      p.load project path = loadedAs p project path parsers handed lines := by
  rw [Progress.load, if_neg (mt Progress.any_loaded_iff.1 hnew)]
  cases hread : project.view.read path with
  | error e =>
    have houtline : project.outline path = .error e := by rw [Project.outline, hread]; rfl
    refine ⟨w.parsers, [], [Progress.skipLine path e], hstandard, ?_, ?_⟩
    · rw [load_of_unread hlookup hread, miss_eq, Work.loaded, failure?, load_eq_map_outline,
        houtline, List.append_nil]
      rfl
    · rw [hparsers, loadedAs, houtline, List.append_nil]
      rfl
  | ok text =>
    -- a parser may be made for the file now, which the outline does not depend on
    obtain ⟨hregistry, -⟩ := hstandard.parse path (project.grammar path text)
    have hparse := hstandard.outline_parse path (project.grammar path text)
    have houtline : project.outline path = Outline.ofFile path (project.grammar path text) := by
      rw [Project.outline, hread]
      rfl
    rw [load_of_read hlookup hread, ← hparsers, hparse]
    dsimp only
    generalize w.parsers.parse path (project.grammar path text) = parsed at *
    cases hfile : Outline.ofFile path (project.grammar path text) with
    | error e =>
      rw [hfile] at houtline hparse
      refine ⟨parsed.registry, [path], parsed.lines ++ [Progress.skipLine path e], hregistry, ?_, ?_⟩
      · rw [Work.loaded, failure?, load_eq_map_outline, houtline, ← List.append_assoc]
        rfl
      · rw [loadedAs, houtline, ← List.append_assoc, hparse]
        rfl
    | ok outline =>
      rw [hfile] at houtline hparse
      refine ⟨parsed.registry, [path], parsed.lines, hregistry, ?_, ?_⟩
      · rw [Work.loaded, failure?, load_eq_map_outline, houtline]
        simp only [Except.map, Option.toList, List.append_nil]
        rfl
      · rw [loadedAs, houtline, hparse]
        rfl

theorem loadedPaths_loadedAs (p : Progress) (project : Project) (path : String)
    (parsers : ParserRegistry) (handed : List String) (lines : List Log.Line) :
    (loadedAs p project path parsers handed lines).loadedPaths = p.loadedPaths ++ [path] :=
  List.map_append

/-- The caches still agree when a file has been loaded. -/
theorem Agrees.loaded {w : Work} {a : Account} (h : Agrees session project w a)
    {parsers : ParserRegistry} (hstandard : parsers.IsStandard) (handed : List String)
    (lines : List Log.Line) :
    Agrees session project (w.loaded project path parsers handed lines)
      { a with progress := loadedAs a.progress project path parsers handed lines } := by
  have hpaths := loadedPaths_loadedAs a.progress project path parsers handed lines
  have hkept : ∀ p ∈ a.progress.loadedPaths,
      p ∈ (loadedAs a.progress project path parsers handed lines).loadedPaths := by
    intro p hp
    rw [hpaths]
    exact List.mem_append_left _ hp
  exact
    { h with
      parsers := rfl
      lines := congrArg (· ++ lines) h.lines
      handed := congrArg (· ++ handed) h.handed
      parsed := by
        dsimp only
        rw [hpaths, List.map_append, ← h.parsed]
        rfl
      isStandard := hstandard
      failures := by
        dsimp only
        rw [hpaths, List.filterMap_append, ← h.failures]
        rfl
      visited := fun v hv => hkept _ (h.visited v hv)
      nextHops := fun entry hentry =>
        ⟨hkept _ (h.nextHops entry hentry).1, (h.nextHops entry hentry).2⟩ }

/-- In a run that goes on, a file that is asked for is loaded. -/
theorem advance_load (session : Session) {p : Progress} (h : p.failure = none) (path : String) :
    advance session project p [.load path] = p.load project path := by
  simp [advance, Progress.step, h]

/-- **Loading a file** gives what the project gives. -/
theorem simulates_load (path : String) :
    Simulates session project (load project path) [.ask (.load path)]
      (project.load path).toOption := by
  intro w a h
  have hlookup := lookup_map_key (fun path => (project.load path).toOption) a.progress.loadedPaths
    path
  rw [← h.parsed] at hlookup
  rw [Account.enterAll_ask, advance_load session h.going]
  by_cases hmem : path ∈ a.progress.loadedPaths
  · rw [if_pos hmem] at hlookup
    rw [load_of_known hlookup, Progress.load_of_mem hmem]
    exact ⟨rfl, h⟩
  · rw [if_neg hmem] at hlookup
    obtain ⟨parsers, handed, lines, hstandard, hload, hprogress⟩ :=
      exists_load h.parsers h.isStandard hlookup hmem
    rw [hload, hprogress]
    exact ⟨rfl, h.loaded hstandard handed lines⟩

/-! ## 2. Names -/

/-- In a run that goes on, the scope is found when it is asked for. -/
theorem advance_scope (session : Session) {p : Progress} (h : p.failure = none) :
    advance session project p [.scope] = p.enterScope (Discovery.run project.view {}) := by
  simp [advance, Progress.step, h]

theorem advance_lookup (session : Session) {p : Progress} (h : p.failure = none) :
    advance session project p [.lookup] = p.enterLookup
      (Lookup.prepare project.view (Session.scope project) session.supplied) := by
  simp [advance, Progress.step, h]

theorem scopeFiles_eq (w : Work) :
    scopeFiles project w
      = match w.caches.scope with
        | some scope => .ok scope w
        | none =>
          match Discovery.run project.view {} with
          | .error e => .error e w
          | .ok found => .ok found.files
              { w with
                lines := w.lines ++ found.lines {}
                caches := { w.caches with scope := some found.files } } := by
  rw [scopeFiles, get_bind]
  cases w.caches.scope with
  | some scope => rfl
  | none =>
    cases Discovery.run project.view {} with
    | error e => rfl
    | ok found => rfl

/-- **Asking for the scope** gives the source files of the project, or it fails. -/
theorem simulates_scopeFiles :
    Simulates session project (scopeFiles project) [.ask .scope] (Session.scope project) := by
  intro w a h
  have hscope := h.scope
  rw [Account.enterAll_ask, advance_scope session h.going, scopeFiles_eq]
  by_cases hscoped : a.progress.isScoped = true
  · have hsame : a.progress.enterScope (Discovery.run project.view {}) = a.progress :=
      if_pos hscoped
    rw [if_pos hscoped] at hscope
    rw [hsame, hscope]
    exact ⟨rfl, h⟩
  · rw [if_neg hscoped] at hscope
    rw [hscope, Progress.enterScope.eq_def, if_neg hscoped]
    cases hfound : Discovery.run project.view {} with
    | error e => exact ⟨{ h.toShows with }, rfl⟩
    | ok found =>
      have hfiles : Session.scope project = found.files := by rw [Session.scope, hfound]
      exact ⟨hfiles.symm,
        { h with
          lines := congrArg (· ++ found.lines {}) h.lines
          scope := congrArg some hfiles.symm
          isScoped := fun _ => rfl }⟩

/-- The index is not prepared by finding the scope. -/
theorem isIndexed_enterScope (p : Progress) (found : Except Failure Discovery) :
    (p.enterScope found).isIndexed = p.isIndexed := by
  unfold Progress.enterScope
  split
  · rfl
  · split <;> rfl

/-- Unless that fails, the scope is known when it has been asked for. -/
theorem isScoped_enterScope {p : Progress} {found : Except Failure Discovery}
    (h : (p.enterScope found).failure = none) : (p.enterScope found).isScoped = true := by
  unfold Progress.enterScope at h ⊢
  split
  · assumption
  · split
    · rfl
    · rename_i hscoped _ e
      rw [if_neg hscoped] at h
      cases h

theorem isScoped_advance_scope {p : Progress} (h : p.failure = none)
    (hgoing : (advance session project p [.scope]).failure = none) :
    (advance session project p [.scope]).isScoped = true := by
  rw [advance_scope session h] at hgoing ⊢
  exact isScoped_enterScope hgoing

/-- The lookup is prepared when it has been asked for. -/
theorem isIndexed_enterLookup (p : Progress) (prepared : Lookup.Preparation) :
    (p.enterLookup prepared).isIndexed = true := by
  unfold Progress.enterLookup
  split
  · assumption
  · rfl

/-- Where the lookup is prepared, there is nothing to be done for a name. -/
theorem advance_of_isIndexed (session : Session) (project : Project) {p : Progress}
    (h : p.failure = none) (hscoped : p.isScoped = true) (hindexed : p.isIndexed = true) :
    advance session project p [.scope, .lookup] = p := by
  have hscope : advance session project p [.scope] = p :=
    (advance_scope session h).trans (if_pos hscoped)
  have hlookup : advance session project p [.lookup] = p :=
    (advance_lookup session h).trans (if_pos hindexed)
  rw [advance_cons p .scope [.lookup], hscope, hlookup]

theorem lookupIndexes_eq (w : Work) :
    lookupIndexes project w
      = match w.caches.indexes with
        | some indexes => .ok indexes w
        | none => (scopeFiles project >>= fun scope w' =>
          let prepared := Lookup.prepare project.view scope w'.supplied
          .ok prepared.lookup.indexes
            { w' with
              supplied := prepared.supplied
              lines := w'.lines ++ prepared.lines
              caches := { w'.caches with indexes := some prepared.lookup.indexes } } : Task _) w := by
  rw [lookupIndexes, get_bind]
  cases w.caches.indexes with
  | some indexes => rfl
  | none => rfl

/-- **Asking for the indexes** gives those of the graph, and with them the scope is known. -/
theorem simulates_lookupIndexes :
    Simulates session project (lookupIndexes project) [.ask .scope, .ask .lookup]
      (session.graph project).lookup.indexes := by
  intro w a h
  have hindexes := h.indexes
  rw [lookupIndexes_eq]
  by_cases hindexed : a.progress.isIndexed = true
  -- indexes that are known were made in a scope that is known, so neither event changes anything
  · have hdeeds : a.enterAll session project [.ask .scope, .ask .lookup] = a := by
      have hsame := advance_of_isIndexed session project h.going (h.isScoped hindexed)
        hindexed
      exact congrArg (fun p => { a with progress := p }) hsame
    rw [if_pos hindexed] at hindexes
    rw [hdeeds, hindexes]
    exact ⟨rfl, h⟩
  · rw [if_neg hindexed] at hindexes
    rw [hindexes]
    -- the search for the scope can fail, the indexes cannot
    refine (simulates_scopeFiles w a h).bind_enterAll [.ask .lookup] fun w' h' => ?_
    have hscope : (a.enterAll session project [.ask .scope]).progress
        = a.progress.enterScope (Discovery.run project.view {}) := advance_scope session h.going
    generalize a.enterAll session project [.ask .scope] = a' at hscope h' ⊢
    have hfresh : a'.progress.isIndexed = false := by
      rw [hscope, isIndexed_enterScope]
      exact Bool.eq_false_iff.2 hindexed
    rw [Account.enterAll_ask, advance_lookup session h'.going, h'.unprepared hfresh,
      Progress.enterLookup.eq_def, if_neg (by simp [hfresh])]
    have hgoing := h'.going
    rw [hscope] at hgoing
    exact ⟨rfl,
      { h' with
        supplied := rfl
        lines := congrArg (· ++ _) h'.lines
        indexes := rfl
        isScoped := fun _ => by
          rw [← isScoped_enterScope hgoing, ← hscope]
          rfl
        unprepared := fun hnot => Bool.noConfusion hnot
        nextHops := fun entry hentry =>
          ⟨(h'.nextHops entry hentry).1, fun _ => rfl, (h'.nextHops entry hentry).2.2⟩ }⟩

/-- Asking for the scope once more changes nothing. -/
theorem advance_scope_scope (session : Session) (project : Project) {p : Progress}
    (h : p.failure = none) :
    advance session project p [.scope, .scope] = advance session project p [.scope] := by
  rw [advance_cons p .scope [.scope]]
  cases hfailure : (advance session project p [.scope]).failure with
  | some e => exact advance_of_failure hfailure _
  | none =>
    rw [advance_scope session hfailure]
    exact if_pos (isScoped_advance_scope h hfailure)

/-- Nor does asking for the declarers of another name. -/
theorem advance_lookup_lookup (session : Session) (project : Project) {p : Progress}
    (h : p.failure = none) :
    advance session project (advance session project p [.scope, .lookup]) [.scope, .lookup]
      = advance session project p [.scope, .lookup] := by
  rw [advance_cons p .scope [.lookup]]
  cases hscope : (advance session project p [.scope]).failure with
  | some e =>
    rw [advance_of_failure hscope]
    exact advance_of_failure hscope _
  | none =>
    rw [advance_lookup session hscope]
    refine advance_of_isIndexed session project ?_ ?_ (isIndexed_enterLookup _ _)
    · rw [Progress.failure_enterLookup, hscope]
    · rw [Progress.isScoped_enterLookup]
      exact isScoped_advance_scope h hscope

/-- **Asking what a name stands for** gives what the graph gives. -/
theorem simulates_lookupClass (path name : String) (imports : List Import) :
    Simulates session project (lookupClass project path name imports) [.ask .scope, .ask .lookup]
      ((session.graph project).lookup.choose? path name imports) := by
  have hvalue : (session.graph project).lookup.choose? path name imports
      = Lookup.choose? ⟨Session.scope project, (session.graph project).lookup.indexes⟩ path name
          imports := by
    rw [← session.scope_lookup_graph]
  rw [hvalue]
  have htask : Simulates session project (lookupClass project path name imports)
      ([.ask .scope] ++ ([.ask .scope, .ask .lookup] ++ [])) _ :=
    simulates_scopeFiles.bind (simulates_lookupIndexes.bind (simulates_pure _))
  refine htask.of_deeds fun w a h => ?_
  have hsame := advance_scope_scope session project h.going
  exact congrArg (fun p => { a with progress := advance session project p [.lookup] }) hsame.symm

end Analyzer

end CodeAtlas.Traversal
