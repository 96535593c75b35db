import CodeAtlas.Proofs.Dedup
import CodeAtlas.Traversal.Graph

/-!
# Where a file leads

A file leads to files that are there, under their canonical paths, or to files of the scope, and
never to itself. The imports give files of the first kind (`exists_of_mem_targetsOf`), the class
names those of the second (`mem_of_choose?`).
-/

namespace CodeAtlas.Traversal

/-! ## 1. Class names -/

namespace Lookup

variable {lookup : Lookup} {path name target : String} {imports : List Import}

/-- A lookup is prepared in the scope that it is asked for. -/
theorem scope_prepare (view : FileView) (scope : List String) (supplied : Option ImportIndex) :
    (prepare view scope supplied).lookup.scope = scope := by
  unfold prepare
  split
  · rfl
  · dsimp only
    split <;> rfl

theorem mem_scope_of_mem_declarers (h : path ∈ lookup.declarers name) : path ∈ lookup.scope :=
  List.mem_of_mem_filter h

theorem mem_of_hinted? {candidates : List String} {source : String}
    (h : hinted? candidates source = some target) : target ∈ candidates := by
  unfold hinted? at h
  dsimp only at h
  split at h
  · cases h
  · exact List.mem_of_find?_eq_some h

/-- **The file that a name stands for declares it**, and is not the file that the name is in. -/
theorem mem_of_choose? (h : lookup.choose? path name imports = some target) :
    target ∈ lookup.declarers name ∧ target ≠ path := by
  have hcandidate : target ∈ (lookup.declarers name).filter (· != path) := by
    unfold choose? at h
    rw [Option.or_eq_some_iff, Option.or_eq_some_iff] at h
    rcases h with (hnear | ⟨-, hhint⟩) | ⟨-, hfirst⟩
    · exact List.mem_of_find?_eq_some hnear
    · obtain ⟨source, -, hsource⟩ := List.exists_of_findSome?_eq_some hhint
      exact mem_of_hinted? hsource
    · exact List.mem_of_mem_head? hfirst
  rw [List.mem_filter] at hcandidate
  exact ⟨hcandidate.1, bne_iff_ne.1 hcandidate.2⟩

end Lookup

namespace ImportGraph

/-! ## 2. Imports -/

variable {graph : ImportGraph} {view : FileView} {path target : String}

theorem exists_of_resolveImport {specifier : String}
    (h : (view.resolveImport path specifier).map view.canonical = some target) :
    ∃ p, view.contains p = true ∧ target = view.canonical p := by
  obtain ⟨p, hp, rfl⟩ := Option.map_eq_some_iff.1 h
  exact ⟨p, List.find?_some hp, rfl⟩

/-- **An import means files that are there.** -/
theorem exists_of_mem_targetsOf {i : Import} (h : target ∈ targetsOf view path i) :
    ∃ p, view.contains p = true ∧ target = view.canonical p := by
  unfold targetsOf at h
  dsimp only at h
  split at h
  · split at h
    · exact exists_of_resolveImport (Option.mem_toList.1 h)
    · obtain ⟨name, -, hname⟩ := List.mem_filterMap.1 h
      exact exists_of_resolveImport hname
  · rw [List.isEmpty_nil, if_pos rfl] at h
    exact exists_of_resolveImport (Option.mem_toList.1 h)

/-! ## 3. Steps -/

theorem mem_nextOf {file : LoadedFile} :
    target ∈ graph.nextOf path file ↔
      (target ≠ path ∧ ∃ i ∈ file.outline.imports,
        target ∈ targetsOf graph.project.view path i) ∨
      ∃ name ∈ openNames graph.project.view path file,
        graph.lookup.choose? path name file.outline.imports = some target := by
  unfold nextOf
  rw [List.mem_eraseDups, List.mem_append, List.mem_filter, List.mem_flatMap, List.mem_filterMap,
    bne_iff_ne, and_comm]

theorem next_of_ok {file : LoadedFile} (h : graph.project.load path = .ok file) :
    graph.next path = graph.nextOf path file := by
  rw [next, h]

theorem next_of_error {e : Failure} (h : graph.project.load path = .error e) :
    graph.next path = [] := by
  rw [next, h]

/-- A file does not lead to itself. -/
theorem ne_of_mem_next (h : target ∈ graph.next path) : target ≠ path := by
  unfold next at h
  split at h
  · rcases mem_nextOf.1 h with ⟨hne, -⟩ | ⟨name, -, hchosen⟩
    · exact hne
    · exact (Lookup.mem_of_choose? hchosen).2
  · exact absurd h List.not_mem_nil

/-- **A step leads to a file that is there, or into the scope.** -/
theorem exists_or_mem_scope_of_mem_next (h : target ∈ graph.next path) :
    (∃ p, graph.project.view.contains p = true ∧ target = graph.project.view.canonical p) ∨
      target ∈ graph.lookup.scope := by
  unfold next at h
  split at h
  · rcases mem_nextOf.1 h with ⟨-, i, -, hi⟩ | ⟨name, -, hchosen⟩
    · exact Or.inl (exists_of_mem_targetsOf hi)
    · exact Or.inr (Lookup.mem_scope_of_mem_declarers (Lookup.mem_of_choose? hchosen).1)
  · exact absurd h List.not_mem_nil

end ImportGraph

end CodeAtlas.Traversal
