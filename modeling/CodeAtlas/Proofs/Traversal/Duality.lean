import CodeAtlas.Proofs.Traversal.Graph
import CodeAtlas.Proofs.Traversal.Report
import CodeAtlas.Proofs.Traversal.Run

/-!
# Forward and backward are dual

Where every file of a project lies in the scope, no step leaves the scope, and a step back undoes a
step: the files that lead to a file are exactly those whose steps lead there. So a walk from one
file to another, read backwards, is a walk of the backward search (`walk_backStep`), the distances
agree, and one file is listed forward from another exactly when the other is listed backward from it
(`Session.analyze_dual`).
-/

namespace CodeAtlas

/-- **A search has found every file** of a view. -/
structure FileView.IsCoveredBy (view : FileView) (found : Discovery) : Prop where
  run : Discovery.run view {} = .ok found
  mem : ∀ path, view.contains path = true → view.canonical path ∈ found.files

/-- A store in memory is covered if all of its keys are found. -/
theorem MemoryStore.isCoveredBy {store : MemoryStore} {found : Discovery}
    (hrun : Discovery.run store.view {} = .ok found)
    (hkeys : ∀ file ∈ store.files, file.1 ∈ found.files) : store.view.IsCoveredBy found where
  run := hrun
  mem path hpath := by
    obtain ⟨file, hfile, hkey⟩ := contains_iff.1 hpath
    have hcanonical : store.view.canonical path = file.1 := hkey.symm
    rw [hcanonical]
    exact hkeys file hfile

namespace Traversal

namespace ImportGraph

variable {graph : ImportGraph} {a b : String} {n depth : Nat}

/-! ## 1. Walks read backwards -/

/-- **No step leaves the scope.** -/
def IsClosed (graph : ImportGraph) : Prop :=
  ∀ path target, path ∈ graph.lookup.scope → target ∈ graph.next path → target ∈ graph.lookup.scope

/-- What leads to a loadable file can be loaded. -/
theorem isLoadable_of_walk (h : Walk graph.next n a b) (hb : graph.project.isLoadable b = true) :
    graph.project.isLoadable a = true := by
  induction h with
  | refl => exact hb
  | snoc _ hstep ih => exact ih (isLoadable_of_mem_next hstep)

/-- A walk back from a file ends at a loadable file only if it starts at one. -/
theorem isLoadable_of_walk_back (h : Walk graph.backStep n b a)
    (ha : graph.project.isLoadable a = true) : graph.project.isLoadable b = true := by
  induction h with
  | refl => exact ha
  | snoc _ hstep ih => exact ih (mem_backStep.1 hstep).1

/-- **A walk inside the scope can be taken backwards**, if its end can be loaded. The induction
is on the walk from its start, so the last step becomes the first. -/
theorem walk_backStep (hclosed : graph.IsClosed) (h : Walk graph.next n a b)
    (ha : a ∈ graph.lookup.scope) (hb : graph.project.isLoadable b = true) :
    Walk graph.backStep n b a := by
  induction h with
  | refl => exact Walk.refl _
  | @snoc n a c b hwalk hstep ih =>
    have hc : c ∈ graph.lookup.scope := hwalk.mem_of_closed hclosed ha
    have hback : c ∈ graph.backStep b := mem_backStep.2 ⟨hb, hc, hstep⟩
    exact Walk.cons hback (ih ha (isLoadable_of_mem_next hstep))

theorem walk_next (h : Walk graph.backStep n b a) : Walk graph.next n a b := by
  induction h with
  | refl => exact Walk.refl _
  | snoc _ hstep ih => exact Walk.cons (mem_backStep.1 hstep).2.2 ih

/-- **Distance does not depend on the direction** between loadable files. -/
theorem isDistance_backStep (hclosed : graph.IsClosed) (ha : a ∈ graph.lookup.scope)
    (hb : graph.project.isLoadable b = true) :
    IsDistance graph.backStep b a n ↔ IsDistance graph.next a b n := by
  have hset : {m | Walk graph.backStep m b a} = {m | Walk graph.next m a b} :=
    Set.ext fun m => ⟨walk_next, fun h => walk_backStep hclosed h ha hb⟩
  rw [IsDistance, hset]
  rfl

/-! ## 2. Reports -/

/-- In a closed scope a file is listed forward from another exactly if that one is listed backward
from it. -/
theorem lists_forward_iff_lists_backward (hclosed : graph.IsClosed) (ha : a ∈ graph.lookup.scope) :
    (graph.report a .forward depth).Lists b n ↔ (graph.report b .backward depth).Lists a n := by
  rw [lists_forward, lists_backward]
  constructor
  · rintro ⟨hb, hle, hdist⟩
    exact ⟨isLoadable_of_walk hdist.walk hb, hle, (isDistance_backStep hclosed ha hb).2 hdist⟩
  -- the backward search takes no step from a file that cannot be loaded
  · rintro ⟨hload, hle, hdist⟩
    have hb := isLoadable_of_walk_back hdist.walk hload
    exact ⟨hb, hle, (isDistance_backStep hclosed ha hb).1 hdist⟩

/-- **A backward report misses no file but its entry.** -/
theorem path_of_mem_unreachable_backward {entry : String} {u : UnreachableFile}
    (h : u ∈ (graph.report entry .backward depth).unreachable) : u.path = entry := by
  have hfound : (graph.report entry .backward depth).unreachable
      = firstByKey (·.path) (graph.unreachableFiles (graph.backwardVisits depth entry)) := rfl
  rw [hfound] at h
  obtain ⟨hvisit, e, hload, -⟩ := mem_unreachableFiles.1 (mem_of_mem_firstByKey h)
  rcases isLoadable_of_mem_backwardVisits hvisit with hentry | hloadable
  · exact congrArg Visit.path hentry
  · exact absurd hloadable (not_isLoadable_iff.2 ⟨e, hload⟩)

end ImportGraph

/-! ## 3. Runs -/

namespace Session

variable {session : Session} {project : Project} {found : Discovery}

theorem scope_graph (h : Discovery.run project.view {} = .ok found) :
    (session.graph project).lookup.scope = found.files := by
  rw [graph, Lookup.scope_prepare, scope, h]

/-- The graph of a project whose files have all been found is closed. -/
theorem isClosed_graph (h : project.view.IsCoveredBy found) : (session.graph project).IsClosed := by
  intro path target _ htarget
  rcases ImportGraph.exists_or_mem_scope_of_mem_next htarget with ⟨p, hp, rfl⟩ | hscope
  · rw [scope_graph h.run]
    exact h.mem p hp
  · exact hscope

/-- **Forward and backward traversals are dual.** Where all files lie in the scope, one file is
listed forward from another exactly if that one is listed backward from it, in as many hops, and
backward no file but the entry is missed. -/
theorem analyze_dual (session : Session) (hlaw : project.view.Lawful)
    (hfound : project.view.IsCoveredBy found) {a b : String}
    (ha : project.view.contains a = true) (hb : project.view.contains b = true) (depth : Nat) :
    ∃ forward backward,
      (session.analyze project (.of a .forward depth)).outcome = .ok forward ∧
      (session.analyze project (.of b .backward depth)).outcome = .ok backward ∧
      (∀ hop, forward.Lists (project.view.canonical b) hop ↔
        backward.Lists (project.view.canonical a) hop) ∧
      ∀ u ∈ backward.unreachable, u.path = project.view.canonical b := by
  have hscope : project.view.canonical a ∈ (session.graph project).lookup.scope := by
    rw [scope_graph hfound.run]
    exact hfound.mem a ha
  rw [← hlaw.contains_canonical] at ha hb
  refine ⟨_, _, outcome_analyze_of_found ha hfound.run .forward depth,
    outcome_analyze_of_found hb hfound.run .backward depth, fun hop => ?_, fun u hu => ?_⟩
  · exact ImportGraph.lists_forward_iff_lists_backward (isClosed_graph hfound) hscope
  · exact ImportGraph.path_of_mem_unreachable_backward hu

theorem isCoveredBy_mutualImports :
    mutualImports.view.IsCoveredBy ⟨["/a.ts", "/b.ts"], ["/a.ts", "/b.ts"], false⟩ := by
  refine MemoryStore.isCoveredBy ?_ (by decide +kernel)
  have hfound : (Discovery.run mutualImports.view {}).toOption
      = some ⟨["/a.ts", "/b.ts"], ["/a.ts", "/b.ts"], false⟩ := by
    decide +kernel
  cases hrun : Discovery.run mutualImports.view {} with
  | ok found =>
    rw [hrun] at hfound
    exact hrun.trans (congrArg Except.ok (Option.some.inj hfound))
  | error e =>
    rw [hrun] at hfound
    cases hfound

theorem analyze_dual_mutualImports :
    mutualImports.view.Lawful ∧
      mutualImports.view.IsCoveredBy ⟨["/a.ts", "/b.ts"], ["/a.ts", "/b.ts"], false⟩ ∧
      mutualImports.view.contains "/a.ts" = true ∧ mutualImports.view.contains "/b.ts" = true ∧
      ∃ forward backward,
        (Session.analyze {} mutualImports (.of "/a.ts" .forward 2)).outcome = .ok forward ∧
        (Session.analyze {} mutualImports (.of "/b.ts" .backward 2)).outcome = .ok backward ∧
        (∀ hop, forward.Lists (mutualImports.view.canonical "/b.ts") hop ↔
          backward.Lists (mutualImports.view.canonical "/a.ts") hop) ∧
        ∀ u ∈ backward.unreachable, u.path = mutualImports.view.canonical "/b.ts" := by
  have hlaw : mutualImports.view.Lawful := (MemoryStore.isKeyed_ofFiles _ _).lawful_view
  have ha : mutualImports.view.contains "/a.ts" = true := by decide +kernel
  have hb : mutualImports.view.contains "/b.ts" = true := by decide +kernel
  exact ⟨hlaw, isCoveredBy_mutualImports, ha, hb,
    analyze_dual {} hlaw isCoveredBy_mutualImports ha hb 2⟩

end Session

end Traversal

end CodeAtlas
