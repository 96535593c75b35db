import CodeAtlas.Proofs.Traversal.Refinement

/-!
# Earlier traversals leave nothing behind

Between two traversals an analyzer keeps all seven caches, and the files may change in the meantime.
What it answers next does not depend on them: it answers as its session does (`Analyzer.tells_analyze`),
and as long as no index is supplied and the parsers are those of a new analyzer or made by them
(`Analyzer.IsClean`), its session answers as a new one. So whatever has happened to the files and
whatever has been asked, the next request is answered as by a new analyzer, and one that fails
changes nothing (`Workspace.analyze_after`).
-/

namespace CodeAtlas.Traversal

namespace Analyzer

variable {a b : Analyzer} {project : Project} {store : MemoryStore} {grammar : Grammar}
  {request : Request}

/-! ## 1. Clean analyzers -/

/-- **A clean analyzer** has no supplied index, and its parsers are as good as new ones. Its caches
may hold anything. -/
def IsClean (a : Analyzer) : Prop :=
  a.toSession.IsClean

theorem isClean_new : IsClean {} :=
  Session.isClean_new

/-- Whatever is asked, a clean analyzer stays clean. -/
theorem isClean_analyze (h : a.IsClean) (project : Project) (request : Request) :
    (a.analyze project request).analyzer.IsClean := by
  have htells := tells_analyze h.parsers project request
  have hclean := Session.isClean_analyze h project request
  have hparsers := hclean.parsers
  rw [← htells.parsers] at hparsers
  exact ⟨htells.supplied.trans hclean.supplied, hparsers⟩

/-- **Clean analyzers answer alike**, whatever they remember. -/
theorem outcome_analyze_of_isClean (ha : a.IsClean) (hb : b.IsClean) (project : Project)
    (request : Request) :
    (a.analyze project request).outcome = (b.analyze project request).outcome := by
  rw [(tells_analyze ha.parsers project request).outcome,
    (tells_analyze hb.parsers project request).outcome]
  exact Session.outcome_analyze_of_isClean ha hb project request

/-- What is remembered of the files determines the outlines. -/
theorem outline?_eq_of_parsed (h : a.caches.parsed = b.caches.parsed) (view : FileView)
    (path : String) : a.outline? view path = b.outline? view path := by
  rw [outline?, outline?, h]

/-- **After an answer clean analyzers remember the same files.** -/
theorem parsed_analyze_of_isClean (ha : a.IsClean) (hb : b.IsClean) {report : Report}
    (hok : (a.analyze ⟨store.view, grammar⟩ request).outcome = .ok report) :
    (a.analyze ⟨store.view, grammar⟩ request).analyzer.caches.parsed
      = (b.analyze ⟨store.view, grammar⟩ request).analyzer.caches.parsed := by
  cases hcheck : request.check store.view with
  | error e =>
    rw [analyze_of_refused hcheck] at hok
    cases hok
  | ok r =>
    have hpaths : (a.toSession.progress ⟨store.view, grammar⟩ r).loadedPaths
        = (b.toSession.progress ⟨store.view, grammar⟩ r).loadedPaths := by
      rw [Progress.loadedPaths, Progress.loadedPaths, Session.loaded_progress_memory ha,
        Session.loaded_progress_memory hb, Session.graph_eq_of_isClean ha hb]
    rw [(tells_analyze_of_check ha.parsers hcheck).2, (tells_analyze_of_check hb.parsers hcheck).2,
      hpaths]

/-- Of files in memory a request fails only if it is refused, and that changes nothing. -/
theorem analyzer_of_error_memory (h : a.IsClean) {e : Failure}
    (herror : (a.analyze ⟨store.view, grammar⟩ request).outcome = .error e) :
    (a.analyze ⟨store.view, grammar⟩ request).analyzer = a := by
  cases hcheck : request.check store.view with
  | error e' => rw [analyze_of_refused hcheck]
  | ok r =>
    rw [(tells_analyze_of_check h.parsers hcheck).1.outcome,
      (Session.analyze_of_check _ hcheck).2.2, Session.failure_progress_memory] at herror
    cases herror

end Analyzer

/-! ## 2. Histories -/

/-- Files in memory, with an analyzer that is asked about them from time to time. -/
structure Workspace where
  store : MemoryStore
  analyzer : Analyzer := {}

/-- Something done in a workspace. -/
inductive Action where
  /-- A file is added, or given a new text. -/
  | add (path text : String)
  /-- A file is removed, if it is there. -/
  | remove (path : String)
  /-- A traversal is asked for. -/
  | analyze (request : Request)

namespace Workspace

variable (grammar : Grammar)

/-- A traversal of the files as they are. -/
def analyze (w : Workspace) (request : Request) : Analyzer.Answer :=
  w.analyzer.analyze ⟨w.store.view, grammar⟩ request

/-- The workspace after an action. -/
def perform (w : Workspace) : Action → Workspace
  | .add path text => { w with store := w.store.add path text }
  | .remove path => { w with store := (w.store.remove path).1 }
  | .analyze request => { w with analyzer := (w.analyze grammar request).analyzer }

/-- The workspace after some actions, from files that no traversal has seen. -/
def after (store : MemoryStore) (actions : List Action) : Workspace :=
  actions.foldl (perform grammar) { store }

/-- The same files with a new analyzer. -/
def renewed (w : Workspace) : Workspace :=
  { store := w.store }

/-- The outline of a file that the last traversal loaded. -/
def outline? (w : Workspace) (path : String) : Option Outline :=
  w.analyzer.outline? w.store.view path

variable {grammar} {w : Workspace}

/-- An action leaves a clean analyzer clean. -/
theorem isClean_perform (h : w.analyzer.IsClean) (action : Action) :
    (w.perform grammar action).analyzer.IsClean := by
  cases action with
  | add | remove => exact h
  | analyze request => exact Analyzer.isClean_analyze h _ request

theorem isClean_after (store : MemoryStore) (actions : List Action) :
    (after grammar store actions).analyzer.IsClean := by
  have hfoldl : ∀ w : Workspace, w.analyzer.IsClean →
      (actions.foldl (perform grammar) w).analyzer.IsClean := by
    induction actions with
    | nil => exact fun w h => h
    | cons action actions ih => exact fun w h => ih _ (isClean_perform h action)
  exact hfoldl _ Analyzer.isClean_new

/-- **Traversals leave nothing behind.** After whatever changes to the files and whatever
traversals, the next one is answered as by a new analyzer and leaves the same outlines; and if it
fails, the workspace stays as it is, every cache and the outlines of the last traversal included. -/
theorem analyze_after (grammar : Grammar) (store : MemoryStore) (actions : List Action)
    (request : Request) :
    ((after grammar store actions).analyze grammar request).outcome
        = ((after grammar store actions).renewed.analyze grammar request).outcome ∧
      (∀ report, ((after grammar store actions).analyze grammar request).outcome = .ok report →
        ((after grammar store actions).perform grammar (.analyze request)).outline?
          = ((after grammar store actions).renewed.perform grammar (.analyze request)).outline?) ∧
      ∀ e, ((after grammar store actions).analyze grammar request).outcome = .error e →
        (after grammar store actions).perform grammar (.analyze request)
          = after grammar store actions := by
  have hclean : (after grammar store actions).analyzer.IsClean := isClean_after store actions
  refine ⟨Analyzer.outcome_analyze_of_isClean hclean Analyzer.isClean_new _ request, ?_, ?_⟩
  · intro report hok
    funext path
    have hparsed := Analyzer.parsed_analyze_of_isClean hclean Analyzer.isClean_new hok
    exact Analyzer.outline?_eq_of_parsed hparsed _ path
  · intro e herror
    have hanalyzer := Analyzer.analyzer_of_error_memory hclean herror
    rw [perform, analyze, hanalyzer]

end Workspace

end CodeAtlas.Traversal
