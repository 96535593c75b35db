import CodeAtlas.Proofs.Traversal.Drain

/-!
# The caches change nothing

The deeds of a forward search come to the events of its trace, and so do those of a backward search:
the edges are found when the entry is visited, and in no later visit again (`enterAll_forward`,
`enterAll_backwardVisits`). So a traversal gives the report of the graph (`yields_traverse`), and an
analyzer answers every request as the session does that it would be without its caches
(`tells_analyze`), whatever is in them: a good request empties them before it begins.
-/

namespace CodeAtlas.Traversal

namespace Analyzer

variable {session : Session} {project : Project}

/-! ## 1. Forward -/

/-- A file that has been asked for is not loaded again. -/
theorem advance_load_again (session : Session) (project : Project) (p : Progress) (path : String)
    (events more : List Event) :
    advance session project p (.load path :: events ++ .load path :: more)
      = advance session project p (.load path :: events ++ more) := by
  have hagain : advance session project (advance session project p (.load path :: events))
      [.load path] = advance session project p (.load path :: events) := by
    cases hfailure : (advance session project p (.load path :: events)).failure with
    | some e => exact advance_of_failure hfailure _
    | none =>
      have hstart : p.failure = none := Option.eq_none_iff_forall_ne_some.2 fun e hsome => by
        rw [advance_of_failure hsome, hsome] at hfailure
        cases hfailure
      rw [advance_load session hfailure]
      exact Progress.load_of_mem (mem_loadedPaths_advance_load session project hstart path events)
  rw [advance_append, advance_append]
  exact congrArg (advance session project · more) hagain

/-- The deeds of a forward step. -/
def forwardDeeds (graph : ImportGraph) (path : String) : List Deed :=
  .ask (.load path) :: stepDeeds graph path

/-- What a visit of the forward search comes to. -/
theorem enterAll_visitDeeds_forward (a : Account) (depth : Nat) (v : Visit) :
    a.enterAll session project
        (visitDeeds session project (forwardDeeds (session.graph project)) depth v)
      = { a with
          progress := advance session project a.progress
            (.load v.path ::
              if v.hop < depth then (session.graph project).stepTrace v.path else [])
          visited := a.visited ++ [v] } := by
  have hfirst : ∀ deeds, a.enterAll session project (.ask (.load v.path) :: .visit v :: deeds)
      = Account.enterAll session project
          { a with
            progress := advance session project a.progress [.load v.path]
            visited := a.visited ++ [v] } deeds := fun _ => rfl
  rw [visitDeeds, hfirst]
  by_cases hhop : v.hop < depth
  · rw [if_pos hhop, decide_eq_true hhop, Bool.and_true]
    by_cases hload : (session.graph project).project.isLoadable v.path = true
    · have hasks : forwardDeeds (session.graph project) v.path
          = (Event.load v.path :: (session.graph project).stepTrace v.path).map .ask := rfl
      rw [if_pos hload, hasks, Account.enterAll_asks]
      exact congrArg (fun p => ({ a with progress := p, visited := a.visited ++ [v] } : Account))
        (advance_load_again session project a.progress v.path [] _)
    -- the trace has the step of a lost file, too, but that asks for nothing
    · obtain ⟨e, herror⟩ := ImportGraph.not_isLoadable_iff.1 hload
      rw [if_neg hload, stepTrace_of_error herror]
      rfl
  · rw [if_neg hhop, decide_eq_false hhop, Bool.and_false]
    rfl

/-- The forward search passes the events of its trace. -/
theorem enterAll_forward (a : Account) (depth : Nat) (visits : List Visit) :
    a.enterAll session project (visits.flatMap
        (visitDeeds session project (forwardDeeds (session.graph project)) depth))
      = { a with
          progress := advance session project a.progress (visits.flatMap fun v => .load v.path ::
            if v.hop < depth then (session.graph project).stepTrace v.path else [])
          visited := a.visited ++ visits } := by
  induction visits generalizing a with
  | nil => simp only [List.flatMap_nil, List.append_nil]; rfl
  | cons v visits ih =>
    rw [List.flatMap_cons, Account.enterAll_append, enterAll_visitDeeds_forward, ih,
      List.flatMap_cons, advance_append, List.append_cons a.visited v visits]

/-! ## 2. Backward -/

/-- A visit of the backward search, once the edges are known or where they are not asked for. -/
theorem enterAll_visitDeeds_backward (session : Session) (project : Project) {a : Account}
    {depth : Nat} {v : Visit} (h : a.isMapped = true ∨
      ((session.graph project).project.isLoadable v.path && v.hop < depth) = false) :
    a.enterAll session project (visitDeeds session project (fun _ => [.reverse]) depth v)
      = { a with
          progress := advance session project a.progress [.load v.path]
          visited := a.visited ++ [v] } := by
  rw [visitDeeds]
  split
  · rename_i hasked
    have hmapped : a.isMapped = true := h.resolve_right fun hnot => by
      rw [hnot] at hasked
      cases hasked
    exact if_pos hmapped
  · rfl

/-- Visits of that kind load their files. -/
theorem enterAll_backward {a : Account} {depth : Nat} {visits : List Visit}
    (h : a.isMapped = true ∨ ∀ v ∈ visits,
      ((session.graph project).project.isLoadable v.path && v.hop < depth) = false) :
    a.enterAll session project
        (visits.flatMap (visitDeeds session project (fun _ => [.reverse]) depth))
      = { a with
          progress := advance session project a.progress (visits.map fun v => .load v.path)
          visited := a.visited ++ visits } := by
  induction visits generalizing a with
  | nil => simp only [List.flatMap_nil, List.append_nil]; rfl
  | cons v visits ih =>
    have hfirst := enterAll_visitDeeds_backward session project
      (h.imp_right fun hall => hall v List.mem_cons_self)
    rw [List.flatMap_cons, Account.enterAll_append, hfirst, ih, List.append_cons a.visited v visits]
    · rfl
    · exact h.imp_right fun hall u hu => hall u (List.mem_cons_of_mem v hu)

/-- A search visits its entry first. -/
theorem exists_search_eq_cons (step : String → List String) (depth : Nat) (entry : String) :
    ∃ rest, search step depth entry = ⟨entry, 0⟩ :: rest := by
  have hdrains := Pending.drains_iff.2 (Eq.refl (search step depth entry))
  generalize search step depth entry = visits at hdrains ⊢
  cases hdrains with
  | empty hnone => cases hnone
  | next hsome _ =>
    obtain ⟨due, hdue, -⟩ := Pending.exists_due_of_dequeue_eq_some hsome
    cases hdue
    exact ⟨_, rfl⟩

/-- From an entry that leads nowhere a search does not go on. -/
theorem search_of_step_eq_nil {step : String → List String} {entry : String}
    (h : step entry = []) (depth : Nat) : search step depth entry = [⟨entry, 0⟩] := by
  have hfirst : (Pending.start entry).dequeue step depth = some (⟨entry, 0⟩, ⟨[entry], []⟩) := by
    simp only [Pending.dequeue, Pending.start, h, List.foldl_nil, ite_self]
  exact (Pending.drains_iff.1 (.next hfirst (.empty rfl))).symm

/-- The backward search passes the events of its trace. The edges are found when the entry is
visited, if they are needed at all. -/
theorem enterAll_backwardVisits {a : Account} (h : a.isMapped = false) (depth : Nat)
    (entry : String) :
    (a.enterAll session project (((session.graph project).backwardVisits depth entry).flatMap
        (visitDeeds session project (fun _ => [.reverse]) depth))).progress
      = advance session project a.progress ((session.graph project).backwardTrace depth entry) ∧
    (a.enterAll session project (((session.graph project).backwardVisits depth entry).flatMap
        (visitDeeds session project (fun _ => [.reverse]) depth))).visited
      = a.visited ++ (session.graph project).backwardVisits depth entry := by
  rw [ImportGraph.backwardTrace, ImportGraph.backwardVisits_eq]
  obtain ⟨rest, hsearch⟩ := exists_search_eq_cons (session.graph project).backStep depth entry
  have hfirst : ∀ visits : List Visit, (⟨entry, 0⟩ :: visits).map (fun v => Event.load v.path)
      = .load entry :: visits.map (fun v => Event.load v.path) := fun _ => rfl
  by_cases hasked : (0 < depth && (session.graph project).project.isLoadable entry) = true
  · have hentry : a.enterAll session project
        (visitDeeds session project (fun _ => [.reverse]) depth ⟨entry, 0⟩)
        = { progress := advance session project a.progress
              (.load entry :: (session.graph project).edgesTrace)
            visited := a.visited ++ [⟨entry, 0⟩]
            isMapped := true } := by
      rw [visitDeeds, Bool.and_comm, if_pos hasked]
      exact if_neg (Bool.eq_false_iff.1 h)
    rw [hsearch, List.flatMap_cons, Account.enterAll_append, hentry, enterAll_backward (.inl rfl),
      if_pos hasked, hfirst, advance_load_again, advance_append]
    exact ⟨rfl, (List.append_cons a.visited _ rest).symm⟩
  · -- either no visit is followed up, or the entry cannot be loaded and is the only one
    have hnone : ∀ v ∈ search (session.graph project).backStep depth entry,
        ((session.graph project).project.isLoadable v.path && v.hop < depth) = false := by
      intro v hv
      by_cases hload : (session.graph project).project.isLoadable entry = true
      · rw [hload, Bool.and_true, decide_eq_true_eq] at hasked
        rw [decide_eq_false (by omega), Bool.and_false]
      · rw [search_of_step_eq_nil (if_neg hload), List.mem_singleton] at hv
        rw [hv, Bool.eq_false_iff.2 hload, Bool.false_and]
    rw [enterAll_backward (.inr hnone), if_neg hasked, hsearch, hfirst, advance_load_again]
    exact ⟨rfl, rfl⟩

/-! ## 3. Searches -/

/-- **The search forward** visits what the graph tells. -/
theorem simulates_forwardSearch (session : Session) (project : Project) (depth : Nat) (entry : String) :
    Simulates session project
      (drain project (forwardNeighbours project) depth (.start entry) [])
      (((session.graph project).forwardVisits depth entry).flatMap
        (visitDeeds session project (forwardDeeds (session.graph project)) depth))
      ((session.graph project).reached ((session.graph project).forwardVisits depth entry)) := by
  refine simulates_drain (fun path _ => simulates_forwardNeighbours path) (fun path hlost => ?_)
    (Pending.drains_iff.2 rfl) []
  obtain ⟨e, herror⟩ := ImportGraph.not_isLoadable_iff.1 hlost
  exact ImportGraph.next_of_error herror

/-- **The search backward** does, too. -/
theorem simulates_backwardSearch (session : Session) (project : Project) (depth : Nat) (entry : String) :
    Simulates session project
      (drain project (backwardNeighbours project) depth (.start entry) [])
      (((session.graph project).backwardVisits depth entry).flatMap
        (visitDeeds session project (fun _ => [.reverse]) depth))
      ((session.graph project).reached ((session.graph project).backwardVisits depth entry)) := by
  have hnext : ∀ path, (session.graph project).project.isLoadable path = true →
      Simulates session project (backwardNeighbours project path) [.reverse]
        ((session.graph project).backStep path) := by
    intro path hload
    rw [ImportGraph.backStep, if_pos hload]
    exact simulates_backwardNeighbours path
  exact simulates_drain hnext (fun path hlost => if_neg hlost)
    (Pending.drains_iff.2 (ImportGraph.backwardVisits_eq _ depth entry)) []

/-- A search that may not be wanted. -/
theorem simulates_explore {neighbours : String → Task (List String)} {deedsOf : Visit → List Deed}
    {r : Request.Checked} {found : List Visit}
    (h : Simulates session project (drain project neighbours r.depth (.start r.entry) [])
      (found.flatMap deedsOf) ((session.graph project).reached found)) (isWanted : Bool) :
    Simulates session project (explore project r isWanted neighbours)
      ((if isWanted then found else []).flatMap deedsOf)
      ((session.graph project).reached (if isWanted then found else [])) := by
  cases isWanted with
  | false => exact simulates_pure []
  | true => exact h

/-! ## 4. Traversals -/

section Traverse

variable {w : Work} {a : Account}

/-- What the forward search of a traversal visits, nothing if it does not go forward. -/
def forwardFound (graph : ImportGraph) (r : Request.Checked) : List Visit :=
  if r.mode.goesForward then graph.forwardVisits r.depth r.entry else []

/-- What its backward search visits. -/
def backwardFound (graph : ImportGraph) (r : Request.Checked) : List Visit :=
  if r.mode.goesBackward then graph.backwardVisits r.depth r.entry else []

/-- The deeds of a traversal. -/
def traverseDeeds (session : Session) (project : Project) (r : Request.Checked) : List Deed :=
  (forwardFound (session.graph project) r).flatMap
      (visitDeeds session project (forwardDeeds (session.graph project)) r.depth) ++
    (backwardFound (session.graph project) r).flatMap
      (visitDeeds session project (fun _ => [.reverse]) r.depth)

/-- **A traversal passes the events of its trace**, and its visits are those of both searches. -/
theorem enterAll_traverseDeeds (session : Session) (project : Project) (r : Request.Checked)
    (h : a.isMapped = false) :
    (a.enterAll session project (traverseDeeds session project r)).progress
        = advance session project a.progress
            ((session.graph project).trace r.entry r.mode r.depth) ∧
      (a.enterAll session project (traverseDeeds session project r)).visited
        = a.visited ++ (forwardFound (session.graph project) r
            ++ backwardFound (session.graph project) r) := by
  rw [traverseDeeds, Account.enterAll_append, enterAll_forward, ImportGraph.trace, advance_append,
    ← List.append_assoc, forwardFound, backwardFound]
  have hforward : (if r.mode.goesForward then
        (session.graph project).forwardVisits r.depth r.entry else []).flatMap (fun v =>
          .load v.path :: if v.hop < r.depth then (session.graph project).stepTrace v.path else [])
      = if r.mode.goesForward then (session.graph project).forwardTrace r.depth r.entry else [] := by
    cases r.mode.goesForward <;> rfl
  rw [hforward]
  cases r.mode.goesBackward with
  | false => exact ⟨rfl, (List.append_nil _).symm⟩
  | true =>
    refine enterAll_backwardVisits ?_ r.depth r.entry
    exact h

/-- What is reported of a file that has been asked for is what the graph tells of it. -/
theorem Agrees.fileReport?_eq (h : Agrees session project w a) {p : Placement}
    (hp : p.path ∈ a.progress.loadedPaths) :
    Caches.fileReport? w.caches p = (session.graph project).fileReport? p := by
  have hlookup := lookup_map_key (fun path => (project.load path).toOption) a.progress.loadedPaths
    p.path
  rw [← h.parsed, if_pos hp] at hlookup
  have hgraph : (session.graph project).project.load p.path = project.load p.path := rfl
  rw [Caches.fileReport?, hlookup, ImportGraph.fileReport?, hgraph]
  cases project.load p.path with
  | ok file => rfl
  | error e => rfl

/-- **The report that the caches give** after both searches is that of the graph. -/
theorem Agrees.assemble_eq (h : Agrees session project w a) (r : Request.Checked)
    (hvisited : a.visited = forwardFound (session.graph project) r
      ++ backwardFound (session.graph project) r) :
    Report.assemble (Caches.fileReport? w.caches) r
        ((session.graph project).reached (forwardFound (session.graph project) r))
        ((session.graph project).reached (backwardFound (session.graph project) r))
        w.caches.unreachable
      = (session.graph project).report r.entry r.mode r.depth := by
  have hplaced : ∀ p ∈ Placement.ofVisits
      ((session.graph project).reached (forwardFound (session.graph project) r))
      ((session.graph project).reached (backwardFound (session.graph project) r)),
      Caches.fileReport? w.caches p = (session.graph project).fileReport? p := by
    intro p hp
    -- a file is placed by a visit, and what has been visited has been asked for
    have hvisit : ∃ v ∈ a.visited, v.path = p.path := by
      rw [hvisited]
      rcases (Placement.mem_ofVisits
        (ImportGraph.nodup_forwardReached _ r.entry r.mode r.depth)
        (ImportGraph.nodup_backwardReached _ r.entry r.mode r.depth)).1 hp
        with ⟨v, hv, rfl, -⟩ | ⟨v, hv, rfl, -⟩
      · exact ⟨v, List.mem_append_left _ (ImportGraph.mem_reached.1 hv).1, rfl⟩
      · exact ⟨v, List.mem_append_right _ (ImportGraph.mem_reached.1 hv).1, rfl⟩
    obtain ⟨v, hv, hpath⟩ := hvisit
    exact h.fileReport?_eq (hpath ▸ h.visited v hv)
  rw [Report.assemble, List.filterMap_congr hplaced, h.unreachable, hvisited]
  rfl

/-- **A traversal gives the report of the graph.** -/
theorem yields_traverse (h : Agrees session project w a) (hvisited : a.visited = [])
    (hmapped : a.isMapped = false) (r : Request.Checked) :
    Yields session project (traverse project r w)
      (a.enterAll session project (traverseDeeds session project r))
      ((session.graph project).report r.entry r.mode r.depth) := by
  have hall := (enterAll_traverseDeeds session project r hmapped).2
  rw [hvisited, List.nil_append] at hall
  rw [traverseDeeds, Account.enterAll_append] at hall ⊢
  have hforward := simulates_explore (simulates_forwardSearch session project r.depth r.entry)
    r.mode.goesForward
  have hbackward := simulates_explore (simulates_backwardSearch session project r.depth r.entry)
    r.mode.goesBackward
  refine (hforward w a h).bind_enterAll _ fun w' h' => ?_
  exact (hbackward w' _ h').bind_enterAll [] fun w'' h'' => ⟨h''.assemble_eq r hall, h''⟩

end Traverse

/-! ## 5. Answers -/

/-- The session of an analyzer: its parsers and its supplied index, and no files loaded. -/
def toSession (a : Analyzer) : Session :=
  { parsers := a.parsers, supplied := a.supplied }

/-- **An answer tells what a run tells**, and the analyzer keeps what the session keeps. -/
structure Answer.Tells (answer : Answer) (run : Run Report) : Prop where
  outcome : answer.outcome = run.outcome
  lines : answer.lines = run.lines
  handed : answer.handed = run.parsed
  parsers : answer.analyzer.parsers = run.session.parsers
  supplied : answer.analyzer.supplied = run.session.supplied

variable {a : Analyzer} {request : Request} {r : Request.Checked}

/-- At the start of a traversal nothing is remembered, whatever was before. -/
theorem agrees_start (h : a.parsers.IsStandard) (project : Project) (r : Request.Checked) :
    Agrees a.toSession project { a.reset with lines := [startLine r] }
      { progress := { session := a.toSession, lines := [startLine r] } } where
  parsers := rfl
  supplied := rfl
  lines := rfl
  handed := rfl
  parsed := rfl
  isStandard := h
  going := rfl
  failures := rfl
  visited := nofun
  unreachable := rfl
  scope := rfl
  indexes := rfl
  isScoped := nofun
  unprepared := fun _ => rfl
  nextHops := nofun
  isMapped := rfl
  reverse := nofun

/-- A traversal from the start comes as far as the run of the session. -/
theorem yields_start (h : a.parsers.IsStandard) (project : Project) (r : Request.Checked) :
    ∃ account : Account, account.progress = a.toSession.progress project r ∧
      Yields a.toSession project (traverse project r { a.reset with lines := [startLine r] }) account
        ((a.toSession.graph project).report r.entry r.mode r.depth) :=
  ⟨_, (enterAll_traverseDeeds _ project r rfl).1, yields_traverse (agrees_start h project r) rfl rfl r⟩

/-- A request that is refused leaves the analyzer as it is. -/
theorem analyze_of_refused {e : Failure} (h : request.check project.view = .error e) :
    a.analyze project request = ⟨a, .error e, [], []⟩ := by
  unfold analyze
  rw [h]

/-- **A good request is answered as by a run**, whatever the analyzer remembered. Then it remembers
of the files that the run has loaded what loading them gives, and of no others. -/
theorem tells_analyze_of_check (h : a.parsers.IsStandard) (hcheck : request.check project.view = .ok r) :
    (a.analyze project request).Tells (a.toSession.analyze project request) ∧
      (a.analyze project request).analyzer.caches.parsed
        = (a.toSession.progress project r).loadedPaths.map fun path =>
            (path, (project.load path).toOption) := by
  obtain ⟨account, hprogress, hyields⟩ := yields_start h project r
  rw [← hprogress, Session.analyze_eq_of_check _ hcheck, ← hprogress, analyze, hcheck]
  dsimp only
  cases hresult : traverse project r { a.reset with lines := [startLine r] } with
  | ok report w =>
    rw [hresult] at hyields
    obtain ⟨rfl, hagrees⟩ := hyields
    rw [hagrees.going]
    refine ⟨⟨rfl, ?_, hagrees.handed, hagrees.parsers, hagrees.supplied⟩, hagrees.parsed⟩
    exact congrArg (· ++ _) hagrees.lines
  | error e w =>
    rw [hresult] at hyields
    obtain ⟨hshows, hfailure⟩ := hyields
    rw [hfailure]
    exact ⟨⟨rfl, hshows.lines, hshows.handed, hshows.parsers, hshows.supplied⟩, hshows.parsed⟩

/-- **The caches change nothing**: an analyzer answers every request as a session does that keeps
none, whatever it remembers. -/
theorem tells_analyze (h : a.parsers.IsStandard) (project : Project) (request : Request) :
    (a.analyze project request).Tells (a.toSession.analyze project request) := by
  cases hcheck : request.check project.view with
  | ok r => exact (tells_analyze_of_check h hcheck).1
  | error e =>
    rw [analyze_of_refused hcheck, Session.analyze_of_refused hcheck]
    exact ⟨rfl, rfl, rfl, rfl, rfl⟩

end Analyzer

end CodeAtlas.Traversal
