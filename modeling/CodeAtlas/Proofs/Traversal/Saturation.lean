import CodeAtlas.Proofs.Traversal.Queue
import CodeAtlas.Proofs.Traversal.Scope
import Mathlib.Data.List.Perm.Subperm

/-!
# Traversals come to an end

A traversal does not leave the files of its project (`Session.staysIn_graph`), and a shortest walk
meets a new file at each of its steps, so no distance is as large as the number of files
(`IsDistance.lt_length`). Whatever the depth is, a search finishes after as many visits as there are
files at most. From the depth on that is one less than their number, a greater depth makes no
difference to the report but for the depth that it tells (`Session.analyze_saturates`).
-/

namespace CodeAtlas

/-- **All files of a view are among these**, under their canonical paths. -/
def FileView.LiesIn (view : FileView) (files : List String) : Prop :=
  ∀ path, view.contains path = true → view.canonical path ∈ files

/-- The files of a store in memory are its keys. -/
theorem MemoryStore.liesIn_keys (store : MemoryStore) :
    store.view.LiesIn (store.files.map (·.1)) := by
  intro path hpath
  obtain ⟨file, hfile, hkey⟩ := contains_iff.1 hpath
  exact List.mem_map.2 ⟨file, hfile, hkey⟩

namespace Traversal

/-! ## 1. Distances are less than the number of nodes -/

namespace IsDistance

variable {α : Type} {step : α → List α} {a b : α} {n : Nat}

/-- A shortest walk meets nodes at all distances up to its length. The induction takes its last
node away, which is further than all the others. -/
theorem exists_nodes (h : IsDistance step a b n) :
    ∃ nodes : List α, nodes.Nodup ∧ nodes.length = n + 1 ∧
      ∀ c ∈ nodes, ∃ m ≤ n, IsDistance step a c m := by
  induction n generalizing b with
  | zero =>
    refine ⟨[b], List.nodup_singleton b, rfl, ?_⟩
    intro c hc
    rw [List.mem_singleton.1 hc]
    exact ⟨0, Nat.le_refl 0, h⟩
  | succ n ih =>
    obtain ⟨before, hbefore, -⟩ := h.exists_pred
    obtain ⟨nodes, hnodup, hlength, hnodes⟩ := ih hbefore
    -- the others are nearer than `b`, so it is none of them
    have hnew : b ∉ nodes := by
      intro hb
      obtain ⟨m, hm, hdist⟩ := hnodes b hb
      have := hdist.unique h
      omega
    refine ⟨b :: nodes, List.nodup_cons.2 ⟨hnew, hnodup⟩, by rw [List.length_cons, hlength], ?_⟩
    intro c hc
    rcases List.mem_cons.1 hc with rfl | hc
    · exact ⟨n + 1, Nat.le_refl _, h⟩
    · obtain ⟨m, hm, hdist⟩ := hnodes c hc
      exact ⟨m, Nat.le_succ_of_le hm, hdist⟩

/-- **Distances are less than the number of nodes.** -/
theorem lt_length {nodes : List α} (h : IsDistance step a b n)
    (hnodes : ∀ m c, Walk step m a c → c ∈ nodes) : n < nodes.length := by
  obtain ⟨met, hnodup, hlength, hmet⟩ := h.exists_nodes
  -- the nodes met are all different, so there are no more of them than there are at all
  have hsubset : met ⊆ nodes := by
    intro c hc
    obtain ⟨m, -, hdist⟩ := hmet c hc
    exact hnodes m c hdist.walk
  have hle : met.length ≤ nodes.length := (hnodup.subperm hsubset).length_le
  omega

end IsDistance

/-! ## 2. Searches -/

section Search

variable {step : String → List String} {entry : String} {files : List String} {depth larger : Nat}

/-- **A search finishes within some files**: its queue runs empty after these visits, which are to
files of these, to none of them twice, and so to no more than there are. -/
structure FinishesIn (files : List String) (step : String → List String) (depth : Nat)
    (entry : String) (visits : List Visit) : Prop where
  drains : Pending.Drains step depth (.start entry) visits
  nodup : (visits.map (·.path)).Nodup
  mem : ∀ v ∈ visits, v.path ∈ files
  length_le : visits.length ≤ files.length

/-- A search that does not leave some files finishes within them. -/
theorem finishesIn_search (hentry : entry ∈ files)
    (hclosed : ∀ a, ∀ b ∈ step a, b ∈ files) (depth : Nat) :
    FinishesIn files step depth entry (search step depth entry) := by
  have hnodup := nodup_search step depth entry
  have hmem : ∀ v ∈ search step depth entry, v.path ∈ files := by
    intro v hv
    exact (mem_search.1 hv).2.walk.mem_of_closed (fun a b _ => hclosed a b) hentry
  have hsubset : (search step depth entry).map (·.path) ⊆ files := by
    intro path hpath
    obtain ⟨v, hv, rfl⟩ := List.mem_map.1 hpath
    exact hmem v hv
  have hle := (hnodup.subperm hsubset).length_le
  rw [List.length_map] at hle
  exact ⟨Pending.drains_iff.2 rfl, hnodup, hmem, hle⟩

/-- A search that does not leave some files visits nothing new beyond as many hops. -/
theorem search_eq_of_le (hentry : entry ∈ files)
    (hclosed : ∀ a, ∀ b ∈ step a, b ∈ files) (hdepth : files.length ≤ depth + 1)
    (hle : depth ≤ larger) : search step depth entry = search step larger entry := by
  rw [search_eq_filter step entry hle, List.filter_eq_self]
  -- no visit of the deeper search is beyond the depth
  intro v hv
  have hdist := (mem_search.1 hv).2
  have := hdist.lt_length fun m c hwalk => hwalk.mem_of_closed (fun a b _ => hclosed a b) hentry
  exact decide_eq_true (by omega)

theorem search_saturates (hentry : entry ∈ files)
    (hclosed : ∀ a, ∀ b ∈ step a, b ∈ files) (hdepth : files.length ≤ depth + 1)
    (hlarger : files.length ≤ larger + 1) :
    search step depth entry = search step larger entry := by
  rcases Nat.le_total depth larger with hle | hle
  · exact search_eq_of_le hentry hclosed hdepth hle
  · exact (search_eq_of_le hentry hclosed hlarger hle).symm

end Search

/-! ## 3. Graphs -/

namespace ImportGraph

variable {graph : ImportGraph} {files : List String} {entry : String} {depth larger : Nat}

/-- In a graph whose steps do not leave some files, reports do not depend on the depth beyond their
number. -/
theorem report_saturates (h : graph.StaysIn (· ∈ files)) (hentry : entry ∈ files) (mode : Mode)
    (hdepth : files.length ≤ depth + 1) (hlarger : files.length ≤ larger + 1) :
    graph.report entry mode larger = { graph.report entry mode depth with depth := larger } := by
  have hforward : graph.forwardVisits larger entry = graph.forwardVisits depth entry :=
    search_saturates hentry h.next hlarger hdepth
  have hbackward : graph.backwardVisits larger entry = graph.backwardVisits depth entry :=
    search_saturates hentry h.backStep hlarger hdepth
  simp only [report, Report.assemble, hforward, hbackward]

end ImportGraph

/-! ## 4. Runs -/

namespace Session

variable {project : Project} {files : List String}

/-- **Traversals terminate and saturate.** At every depth the searches finish within the files of
the project, and from one hop less than their number on the depth changes nothing but itself. -/
theorem analyze_saturates (session : Session) (hlaw : project.view.Lawful)
    (hfiles : project.view.LiesIn files) {entry : String}
    (h : project.view.contains (project.view.canonical entry) = true) :
    (∀ depth,
      FinishesIn files (session.graph project).next depth (project.view.canonical entry)
        ((session.graph project).forwardVisits depth (project.view.canonical entry)) ∧
      FinishesIn files (session.graph project).backStep depth (project.view.canonical entry)
        ((session.graph project).backwardVisits depth (project.view.canonical entry))) ∧
    ∀ mode depth larger, files.length ≤ depth + 1 → files.length ≤ larger + 1 →
      session.Answers project (.of entry mode depth) fun report =>
        session.Answers project (.of entry mode larger) fun other =>
          other = { report with depth := larger } := by
  have hstays : (session.graph project).StaysIn (· ∈ files) := staysIn_graph session hlaw hfiles
  have hentry : project.view.canonical entry ∈ files := by
    rw [← hlaw.canonical_canonical entry]
    exact hfiles _ h
  constructor
  · intro depth
    exact ⟨finishesIn_search hentry hstays.next depth,
      finishesIn_search hentry hstays.backStep depth⟩
  · intro mode depth larger hdepth hlarger
    apply answers_of h
    apply answers_of h
    exact ImportGraph.report_saturates hstays hentry mode hdepth hlarger

theorem analyze_saturates_mutualImports :
    mutualImports.view.Lawful ∧ mutualImports.view.LiesIn ["/a.ts", "/b.ts"] ∧
      mutualImports.view.contains (mutualImports.view.canonical "/a.ts") = true ∧
      (∀ depth,
        FinishesIn ["/a.ts", "/b.ts"] (Session.graph {} mutualImports).next depth
          (mutualImports.view.canonical "/a.ts")
          ((Session.graph {} mutualImports).forwardVisits depth
            (mutualImports.view.canonical "/a.ts")) ∧
        FinishesIn ["/a.ts", "/b.ts"] (Session.graph {} mutualImports).backStep depth
          (mutualImports.view.canonical "/a.ts")
          ((Session.graph {} mutualImports).backwardVisits depth
            (mutualImports.view.canonical "/a.ts"))) ∧
      ∀ mode depth larger, ["/a.ts", "/b.ts"].length ≤ depth + 1 →
        ["/a.ts", "/b.ts"].length ≤ larger + 1 →
        Session.Answers {} mutualImports (.of "/a.ts" mode depth) fun report =>
          Session.Answers {} mutualImports (.of "/a.ts" mode larger) fun other =>
            other = { report with depth := larger } := by
  have hlaw : mutualImports.view.Lawful := (MemoryStore.isKeyed_ofFiles _ _).lawful_view
  have hfiles : mutualImports.view.LiesIn ["/a.ts", "/b.ts"] := MemoryStore.liesIn_keys _
  have hcontains : mutualImports.view.contains (mutualImports.view.canonical "/a.ts") = true := by
    decide +kernel
  exact ⟨hlaw, hfiles, hcontains, analyze_saturates {} hlaw hfiles hcontains⟩

end Session

end Traversal

end CodeAtlas
