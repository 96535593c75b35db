import CodeAtlas.Proofs.Traversal.Report
import CodeAtlas.Proofs.Traversal.Run

/-!
# A forward traversal finds what the entry depends on

The chains of a graph are the ways along which dependencies lead away from an entry: every file of
a chain but the last has to be loadable, since a file that is not leads nowhere. A forward traversal
lists exactly the loadable files that chains within the depth lead to, each under the length of a
shortest chain, and it misses exactly the others (`Session.answers_forward`).
-/

namespace CodeAtlas.Traversal

namespace ImportGraph

/-! ## 1. Chains -/

/-- **A chain of dependencies** of a length from an entry to a file. All of its files before the
last can be loaded. -/
inductive Chain (graph : ImportGraph) (entry : String) : Nat → String → Prop where
  | entry : Chain graph entry 0 entry
  | next {n : Nat} {path target : String} : Chain graph entry n path →
      graph.project.isLoadable path = true → target ∈ graph.next path →
      Chain graph entry (n + 1) target

variable {graph : ImportGraph} {entry path : String} {n depth hop : Nat}

/-- A file that cannot be loaded leads nowhere, so chains are the walks of the graph. -/
theorem chain_iff_walk : graph.Chain entry n path ↔ Walk graph.next n entry path := by
  constructor
  · intro h
    induction h with
    | entry => exact Walk.refl entry
    | next _ _ htarget ih => exact ih.snoc htarget
  · intro h
    induction h with
    | refl => exact Chain.entry
    | snoc _ htarget ih => exact ih.next (isLoadable_of_mem_next htarget) htarget

theorem isLeast_chain :
    IsLeast {n | graph.Chain entry n path} hop ↔ IsDistance graph.next entry path hop := by
  have hset : {n | graph.Chain entry n path} = {n | Walk graph.next n entry path} :=
    Set.ext fun n => chain_iff_walk
  rw [hset]
  rfl

/-! ## 2. The report -/

/-- **A report of everything within a depth**: the loadable files and the others, each under the
length of a shortest chain. -/
structure IsForwardReach (graph : ImportGraph) (entry : String) (depth : Nat) (report : Report) :
    Prop where
  lists_iff : ∀ path hop, report.Lists path hop ↔
    hop ≤ depth ∧ IsLeast {n | graph.Chain entry n path ∧ graph.project.isLoadable path = true} hop
  misses_iff : ∀ path hop, report.Misses path hop ↔
    hop ≤ depth ∧ ¬ graph.project.isLoadable path = true ∧ IsLeast {n | graph.Chain entry n path} hop
  disjoint : ∀ f ∈ report.files, ∀ u ∈ report.unreachable, f.path ≠ u.path
  nodup_files : (report.files.map (·.path)).Nodup
  nodup_unreachable : (report.unreachable.map (·.path)).Nodup
  hops_pairwise : report.files.Pairwise (·.hop ≤ ·.hop)
  maxHop_ge : ∀ f ∈ report.files, f.hop ≤ report.maxHop
  maxHop_listed : (report.files = [] ∧ report.maxHop = 0) ∨ ∃ f ∈ report.files, f.hop = report.maxHop

theorem isForwardReach_report (graph : ImportGraph) (entry : String) (depth : Nat) :
    graph.IsForwardReach entry depth (graph.report entry .forward depth) where
  lists_iff path hop := by
    rw [lists_forward, ← isLeast_chain]
    constructor
    · rintro ⟨hload, hle, hchain, hleast⟩
      exact ⟨hle, ⟨hchain, hload⟩, fun n hn => hleast hn.1⟩
    · rintro ⟨hle, ⟨hchain, hload⟩, hleast⟩
      exact ⟨hload, hle, hchain, fun n hn => hleast ⟨hn, hload⟩⟩
  misses_iff path hop := by rw [misses_forward, ← isLeast_chain]
  disjoint f hf u hu hpath := by
    have hlists : (graph.report entry .forward depth).Lists f.path f.hop := ⟨f, hf, rfl, rfl⟩
    have hmisses : (graph.report entry .forward depth).Misses u.path u.hop := ⟨u, hu, rfl, rfl⟩
    exact (misses_forward.1 hmisses).2.1 (hpath ▸ (lists_forward.1 hlists).1)
  nodup_files := nodup_paths graph entry .forward depth
  nodup_unreachable := by
    rw [unreachable_forward]
    exact nodup_unreachableFiles (nodup_search _ _ _)
  hops_pairwise := pairwise_hops graph entry .forward depth
  maxHop_ge f hf := Report.le_maxHop ⟨f, hf, rfl, rfl⟩
  maxHop_listed := by
    by_cases hnil : (graph.report entry .forward depth).files = []
    · exact Or.inl ⟨hnil, Report.maxHop_of_files_eq_nil hnil⟩
    · obtain ⟨path, f, hf, -, hhop⟩ := Report.lists_maxHop hnil
      exact Or.inr ⟨f, hf, hhop⟩

end ImportGraph

namespace Session

/-- **A forward traversal is exact.** Whatever the files of the project are, the report of a
traversal from an existing entry holds what chains of dependencies within the depth lead to. -/
theorem answers_forward (session : Session) (project : Project) {entry : String}
    (h : project.view.contains (project.view.canonical entry) = true) (depth : Nat) :
    session.Answers project (.of entry .forward depth)
      ((session.graph project).IsForwardReach (project.view.canonical entry) depth) :=
  answers_of h (ImportGraph.isForwardReach_report _ _ _)

theorem answers_forward_mutualImports :
    mutualImports.view.contains (mutualImports.view.canonical "/./a.ts") = true ∧
      Session.Answers {} mutualImports (.of "/./a.ts" .forward 5)
        ((Session.graph {} mutualImports).IsForwardReach
          (mutualImports.view.canonical "/./a.ts") 5) :=
  ⟨by decide +kernel, answers_forward {} mutualImports (by decide +kernel) 5⟩

end Session

end CodeAtlas.Traversal
