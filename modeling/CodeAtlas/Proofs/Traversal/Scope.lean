import CodeAtlas.Proofs.Traversal.Search
import CodeAtlas.Proofs.Traversal.Supplied
import CodeAtlas.Traversal.Trace

/-!
# The files that a traversal meets

A step leads to a file that is there, under its canonical path, or to one of the scope, and those
too are there and canonical. So what holds of all such files (`ImportGraph.StaysIn`) holds of every
file that a search visits, and of every file that a trace asks for (`StaysIn.of_mem_trace`).
-/

namespace CodeAtlas.Traversal

namespace ImportGraph

/-- **A graph stays among files of a kind**: those of its scope are, and steps lead to no others. -/
structure StaysIn (graph : ImportGraph) (P : String → Prop) : Prop where
  scope : ∀ path ∈ graph.lookup.scope, P path
  next : ∀ path, ∀ target ∈ graph.next path, P target

namespace StaysIn

variable {graph : ImportGraph} {P : String → Prop} {entry path : String} {depth : Nat}

theorem backStep (h : graph.StaysIn P) (path : String) : ∀ source ∈ graph.backStep path, P source :=
  fun source hsource => h.scope source (mem_backStep.1 hsource).2.1

theorem of_mem_forwardVisits (h : graph.StaysIn P) (hentry : P entry) {v : Visit}
    (hv : v ∈ graph.forwardVisits depth entry) : P v.path :=
  (mem_search.1 hv).2.walk.mem_of_closed (fun a b _ => h.next a b) hentry

theorem of_mem_backwardVisits (h : graph.StaysIn P) (hentry : P entry) {v : Visit}
    (hv : v ∈ graph.backwardVisits depth entry) : P v.path :=
  (mem_search.1 hv).2.walk.mem_of_closed (fun a b _ => h.backStep a b) hentry

/-- A step asks for the scope and the lookup at most. -/
theorem notMem_stepTrace (graph : ImportGraph) (file : String) :
    Event.load path ∉ graph.stepTrace file := by
  unfold stepTrace
  split
  · split <;> simp
  · exact List.not_mem_nil

theorem of_mem_forwardTrace (h : graph.StaysIn P) (hentry : P entry)
    (hload : .load path ∈ graph.forwardTrace depth entry) : P path := by
  obtain ⟨v, hv, hevent⟩ := List.mem_flatMap.1 hload
  rcases List.mem_cons.1 hevent with heq | hstep
  · cases heq
    exact h.of_mem_forwardVisits hentry hv
  · split at hstep
    · exact absurd hstep (notMem_stepTrace graph v.path)
    · exact absurd hstep List.not_mem_nil

theorem of_mem_edgesTrace (h : graph.StaysIn P) (hload : .load path ∈ graph.edgesTrace) :
    P path := by
  unfold edgesTrace at hload
  -- what is asked for before and after the files of the scope are no files
  simp only [List.mem_append, List.mem_cons, List.mem_flatMap, reduceCtorEq, List.not_mem_nil,
    or_false, false_or, Event.load.injEq] at hload
  obtain ⟨file, hfile, rfl | hstep⟩ := hload
  · exact h.scope path hfile
  · exact absurd hstep (notMem_stepTrace graph file)

theorem of_mem_backwardTrace (h : graph.StaysIn P) (hentry : P entry)
    (hload : .load path ∈ graph.backwardTrace depth entry) : P path := by
  unfold backwardTrace at hload
  rw [List.mem_append, List.mem_cons, Event.load.injEq] at hload
  rcases hload with (rfl | hedges) | hvisits
  · exact hentry
  · split at hedges
    · exact h.of_mem_edgesTrace hedges
    · exact absurd hedges List.not_mem_nil
  · obtain ⟨v, hv, heq⟩ := List.mem_map.1 hvisits
    cases heq
    exact h.of_mem_backwardVisits hentry hv

/-- **A traversal asks for no other files.** -/
theorem of_mem_trace {mode : Mode} (h : graph.StaysIn P) (hentry : P entry)
    (hload : .load path ∈ graph.trace entry mode depth) : P path := by
  unfold trace at hload
  rcases List.mem_append.1 hload with hload | hload
  · split at hload
    · exact h.of_mem_forwardTrace hentry hload
    · exact absurd hload List.not_mem_nil
  · split at hload
    · exact h.of_mem_backwardTrace hentry hload
    · exact absurd hload List.not_mem_nil

end StaysIn

end ImportGraph

/-- **A traversal of a lawful project stays among its files**, under their canonical paths. -/
theorem Session.staysIn_graph (session : Session) {project : Project}
    (hlaw : project.view.Lawful) {P : String → Prop}
    (hP : ∀ path, project.view.contains path = true → P (project.view.canonical path)) :
    (session.graph project).StaysIn P := by
  have hscope : ∀ path ∈ (session.graph project).lookup.scope, P path := by
    intro path hpath
    rw [scope_lookup_graph] at hpath
    rw [← canonical_of_mem_scope hlaw hpath]
    exact hP path (contains_of_mem_scope hlaw hpath).1
  refine ⟨hscope, ?_⟩
  intro path target htarget
  rcases ImportGraph.exists_or_mem_scope_of_mem_next htarget with ⟨p, hp, rfl⟩ | htarget
  · exact hP p hp
  · exact hscope target htarget

end CodeAtlas.Traversal
