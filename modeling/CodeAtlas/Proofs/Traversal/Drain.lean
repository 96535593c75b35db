import CodeAtlas.Proofs.Traversal.Neighbours

/-!
# Running a search

A search takes the visits out of its queue, loads their files, and asks for the neighbours of those
that can be loaded. Whatever the neighbours are, the visits are those that the queue of the graph
gives (`simulates_drain`), and what is remembered of the lost ones is what the graph tells of them
(`yields_lose`).
-/

namespace CodeAtlas.Traversal

namespace Analyzer

variable {session : Session} {project : Project} {path : String}

/-! ## 1. Visits -/

/-- The reason why a file could not be loaded is found. -/
theorem lookup_failures {e : Failure} (hload : project.load path = .error e)
    {paths : List String} (h : path ∈ paths) :
    (paths.filterMap (failure? project)).lookup path = some e.message := by
  induction paths with
  | nil => exact absurd h List.not_mem_nil
  | cons first paths ih =>
    by_cases hfirst : path = first
    · subst hfirst
      have hreason : failure? project path = some (path, e.message) := by rw [failure?, hload]
      rw [List.filterMap_cons_some hreason, List.lookup_cons_self]
    · have hrest := ih ((List.mem_cons.1 h).resolve_left hfirst)
      cases hreason : failure? project first with
      | none => rw [List.filterMap_cons_none hreason, hrest]
      | some reason =>
        have hkey : reason.1 = first := by
          unfold failure? at hreason
          split at hreason
          · cases hreason
          · exact congrArg Prod.fst (Option.some.inj hreason).symm
        rw [List.filterMap_cons_some hreason, List.lookup_cons, hkey, beq_false_of_ne hfirst, hrest]

/-- The unreachable files after a visit to a file that can be loaded. -/
theorem unreachableFiles_concat_of_ok {graph : ImportGraph} {visit : Visit} {file : LoadedFile}
    (h : graph.project.load visit.path = .ok file) (visited : List Visit) :
    graph.unreachableFiles (visited ++ [visit]) = graph.unreachableFiles visited := by
  simp [ImportGraph.unreachableFiles, h]

/-- A file that cannot be loaded is added. -/
theorem unreachableFiles_concat_of_error {graph : ImportGraph} {visit : Visit} {e : Failure}
    (h : graph.project.load visit.path = .error e) (visited : List Visit) :
    graph.unreachableFiles (visited ++ [visit])
      = graph.unreachableFiles visited ++ [⟨visit.path, e.message, visit.hop⟩] := by
  simp [ImportGraph.unreachableFiles, h]

section Visit

variable {w : Work} {a : Account} {v : Visit}

/-- A visit to a file that has been loaded is one more that has been visited. -/
theorem Agrees.forall_mem_concat (h : Agrees session project w a)
    (hloaded : v.path ∈ a.progress.loadedPaths) :
    ∀ u ∈ a.visited ++ [v], u.path ∈ a.progress.loadedPaths := by
  intro u hu
  rcases List.mem_append.1 hu with hu | hu
  · exact h.visited u hu
  · rwa [List.mem_singleton.1 hu]

/-- **A visit to a file that can be loaded** changes nothing that is remembered. -/
theorem Agrees.visit (h : Agrees session project w a) {file : LoadedFile}
    (hloaded : v.path ∈ a.progress.loadedPaths) (hload : project.load v.path = .ok file) :
    Agrees session project w (a.enterAll session project [.visit v]) :=
  { h with
    visited := h.forall_mem_concat hloaded
    unreachable := by
      rw [h.unreachable]
      exact congrArg _ (unreachableFiles_concat_of_ok hload a.visited).symm }

theorem lose_eq (v : Visit) (w : Work) :
    lose v w = .ok ()
      { w with
        caches :=
          if w.caches.unreachable.any (·.path == v.path) then w.caches
          else
            { w.caches with
              unreachable := w.caches.unreachable ++
                [⟨v.path, (w.caches.failures.lookup v.path).getD "", v.hop⟩] } } := rfl

/-- **A visit to a file that cannot be loaded** is remembered with the reason, unless one is. -/
theorem yields_lose (h : Agrees session project w a) {e : Failure}
    (hloaded : v.path ∈ a.progress.loadedPaths) (hload : project.load v.path = .error e) :
    Yields session project (lose v w) (a.enterAll session project [.visit v]) () := by
  have hgraph : (session.graph project).project.load v.path = .error e := hload
  have hfound := unreachableFiles_concat_of_error hgraph a.visited
  have hreason : w.caches.failures.lookup v.path = some e.message := by
    rw [h.failures]
    exact lookup_failures hload hloaded
  have hknown : w.caches.unreachable.any (·.path == v.path) = true ↔
      v.path ∈ ((session.graph project).unreachableFiles a.visited).map (·.path) := by
    rw [h.unreachable, ← mem_map_firstByKey, List.any_eq_true, List.mem_map]
    exact exists_congr fun u => and_congr_right fun _ => beq_iff_eq
  rw [lose_eq]
  by_cases hmem : w.caches.unreachable.any (·.path == v.path) = true
  -- of two visits to one file the first is remembered, in the graph as in the cache
  · rw [if_pos hmem]
    refine ⟨rfl, { h with visited := h.forall_mem_concat hloaded, unreachable := ?_ }⟩
    have hsame : firstByKey UnreachableFile.path
        ((session.graph project).unreachableFiles a.visited ++ [⟨v.path, e.message, v.hop⟩])
        = firstByKey UnreachableFile.path ((session.graph project).unreachableFiles a.visited) :=
      firstByKey_append_of_subset (List.forall_mem_singleton.2 (hknown.1 hmem))
    rw [h.unreachable, ← hsame, ← hfound]
    rfl
  · rw [if_neg hmem]
    refine ⟨rfl, { h with visited := h.forall_mem_concat hloaded, unreachable := ?_ }⟩
    have hnew : firstByKey UnreachableFile.path
        ((session.graph project).unreachableFiles a.visited ++ [⟨v.path, e.message, v.hop⟩])
        = firstByKey UnreachableFile.path ((session.graph project).unreachableFiles a.visited)
          ++ [⟨v.path, e.message, v.hop⟩] :=
      firstByKey_concat_of_notMem (mt hknown.2 hmem)
    rw [hreason, h.unreachable, Option.getD_some, ← hnew, ← hfound]
    rfl

end Visit

/-! ## 2. The queue -/

/-- What a visit does: its file is asked for, and, before the last hop, what it leads to. -/
def visitDeeds (session : Session) (project : Project) (deedsOf : String → List Deed)
    (depth : Nat) (v : Visit) : List Deed :=
  .ask (.load v.path) :: .visit v ::
    if (session.graph project).project.isLoadable v.path && v.hop < depth then deedsOf v.path
    else []

theorem drain_nil {neighbours : String → Task (List String)} {depth : Nat} {p : Pending}
    {order : List Visit} (h : p.due = []) :
    drain project neighbours depth p order = pure order := by
  rw [drain]
  split
  · rfl
  · rename_i hcons
    cases h.symm.trans hcons

theorem drain_cons {neighbours : String → Task (List String)} {depth : Nat} {p : Pending}
    {order : List Visit} {v : Visit} {due : List Visit} (h : p.due = v :: due) :
    drain project neighbours depth p order = (load project v.path >>= fun loaded =>
      match loaded with
      | none => lose v >>= fun _ => drain project neighbours depth { p with due } order
      | some _ =>
        if v.hop < depth then
          neighbours v.path >>= fun found =>
            drain project neighbours depth (found.foldl (Pending.meet (v.hop + 1)) { p with due })
              (order ++ [v])
        else drain project neighbours depth { p with due } (order ++ [v])) := by
  rw [drain]
  split
  · rename_i hnil
    cases h.symm.trans hnil
  · rename_i v' due' hcons
    cases h.symm.trans hcons
    rfl

section Loaded

variable {α : Type} {v : Visit} {next : Option LoadedFile → Task α} {more : List Deed} {x : α}

/-- What is done after a file has been loaded for a visit. -/
theorem simulates_load_of_ok {file : LoadedFile} (hload : project.load v.path = .ok file)
    (hnext : Simulates session project (next (some file)) more x) :
    Simulates session project (load project v.path >>= next)
      (.ask (.load v.path) :: .visit v :: more) x := by
  intro w a h
  refine (simulates_load v.path w a h).bind_enterAll (.visit v :: more) fun w' h' => ?_
  rw [hload]
  exact hnext w' _ (h'.visit (mem_loadedPaths_advance_load session project h.going v.path []) hload)

/-- What is done where it could not be loaded. -/
theorem simulates_load_of_error {e : Failure} (hload : project.load v.path = .error e)
    {rest : Task α} (hlost : next none = lose v >>= fun _ => rest)
    (hrest : Simulates session project rest more x) :
    Simulates session project (load project v.path >>= next)
      (.ask (.load v.path) :: .visit v :: more) x := by
  intro w a h
  refine (simulates_load v.path w a h).bind_enterAll (.visit v :: more) fun w' h' => ?_
  have hloaded := mem_loadedPaths_advance_load session project h.going v.path []
  rw [hload]
  change Yields session project (next none w') _ x
  rw [hlost]
  exact (yields_lose h' hloaded hload).bind_enterAll more fun w'' h'' => hrest w'' _ h''

end Loaded

/-- **Running a search to its end** visits what the queue of the graph holds. The induction is on
how that queue runs empty. -/
theorem simulates_drain {neighbours : String → Task (List String)}
    {deedsOf : String → List Deed} {step : String → List String} {depth : Nat}
    (hnext : ∀ path, (session.graph project).project.isLoadable path = true →
      Simulates session project (neighbours path) (deedsOf path) (step path))
    (hlost : ∀ path, ¬ (session.graph project).project.isLoadable path = true → step path = [])
    {p : Pending} {visits : List Visit} (h : Pending.Drains step depth p visits)
    (order : List Visit) :
    Simulates session project (drain project neighbours depth p order)
      (visits.flatMap (visitDeeds session project deedsOf depth))
      (order ++ (session.graph project).reached visits) := by
  induction h generalizing order with
  | empty hnone =>
    rw [drain_nil (Pending.due_of_dequeue_eq_none hnone), ImportGraph.reached, List.filter_nil,
      List.append_nil]
    exact simulates_pure order
  | @next p rest v visits hsome hrest ih =>
    obtain ⟨due, hdue, hrest⟩ := Pending.exists_due_of_dequeue_eq_some hsome
    rw [drain_cons hdue, List.flatMap_cons, visitDeeds]
    cases hload : (session.graph project).project.load v.path with
    -- a lost file leads nowhere, so the queue of the graph goes on with the same visits
    | error e =>
      have hlostv : ¬ (session.graph project).project.isLoadable v.path = true :=
        ImportGraph.not_isLoadable_iff.2 ⟨e, hload⟩
      rw [hlost v.path hlostv, List.foldl_nil, ite_self] at hrest
      rw [ImportGraph.reached_cons_of_not hlostv, Bool.eq_false_iff.2 hlostv]
      subst hrest
      exact simulates_load_of_error hload rfl (ih order)
    | ok file =>
      have hloadable : (session.graph project).project.isLoadable v.path = true :=
        ImportGraph.isLoadable_iff.2 ⟨file, hload⟩
      rw [ImportGraph.reached_cons_of_isLoadable hloadable, hloadable,
        List.append_cons order v (ImportGraph.reached _ visits)]
      refine simulates_load_of_ok hload ?_
      -- at the last hop the neighbours are not asked for
      by_cases hhop : v.hop < depth
      · rw [if_pos hhop] at hrest
        subst hrest
        simp only [hhop, if_true, decide_true, Bool.and_self]
        exact (hnext v.path hloadable).bind (ih (order ++ [v]))
      · rw [if_neg hhop] at hrest
        subst hrest
        simp only [hhop, if_false, decide_false, Bool.and_false, Bool.false_eq_true]
        exact ih (order ++ [v])

end Analyzer

end CodeAtlas.Traversal
