import CodeAtlas.Proofs.Index.History
import CodeAtlas.Proofs.Traversal.Merge
import CodeAtlas.Proofs.Traversal.Run

/-!
# The reverse of the edges

The files of the scope can be gone through one by one, each entered under every file that it leads
to. What this gives is what the edges say read backwards: under each file the files of the scope
that lead to it (`filesIn_reverse`), and an entry for every file that is led to (`map_fst_reverse`).
It is the index of names over again (`ImportIndex.filesIn_foldl`), with files in the place of names.
-/

namespace CodeAtlas.Traversal

/-- The files that some files lead to, each with the files that lead to it. -/
def reverse (next : String → List String) (sources : List String) : List (String × List String) :=
  sources.foldl (fun map source =>
    (next source).foldl (fun map target => ImportIndex.insert target source map) map) []

variable (next : String → List String) (sources : List String)

theorem reverse_concat (source : String) :
    reverse next (sources ++ [source])
      = (next source).foldl (fun map target => ImportIndex.insert target source map)
          (reverse next sources) := by
  rw [reverse, List.foldl_append, List.foldl_cons, List.foldl_nil, ← reverse]

/-- Names that are added as long as they are new are those of a list, each once. -/
theorem foldl_addOnce (before names : List String) :
    names.foldl ImportIndex.addOnce before.eraseDups = (before ++ names).eraseDups :=
  Inheritance.foldl_insertName before names

/-- **There is an entry for every file that is led to.** -/
theorem map_fst_reverse : (reverse next sources).map (·.1) = (sources.flatMap next).eraseDups := by
  induction sources using List.reverseRecOn with
  | nil => rfl
  | append_singleton sources source ih =>
    rw [reverse_concat, ImportIndex.map_fst_foldl, ih, foldl_addOnce, List.flatMap_append,
      List.flatMap_singleton]

variable {sources}

/-- **Under each file stand the files that lead to it.** -/
theorem filesIn_reverse (h : sources.Nodup) (path : String) :
    ImportIndex.filesIn (reverse next sources) path
      = sources.filter fun source => (next source).contains path := by
  induction sources using List.reverseRecOn with
  | nil => rfl
  | append_singleton sources source ih =>
    obtain ⟨hsources, -, hnew⟩ := List.nodup_append.1 h
    rw [reverse_concat, ImportIndex.filesIn_foldl, ih hsources, List.filter_append]
    by_cases hpath : path ∈ next source
    · have hlast : [source].filter (fun source => (next source).contains path) = [source] :=
        List.filter_singleton .. |>.trans (by simp [hpath])
      rw [if_pos hpath, hlast, ImportIndex.addOnce_of_notMem]
      exact fun hmem => hnew source (List.mem_of_mem_filter hmem) source List.mem_cons_self rfl
    · have hlast : [source].filter (fun source => (next source).contains path) = [] := by
        simp [hpath]
      rw [if_neg hpath, hlast, List.append_nil]

namespace ImportGraph

variable (graph : ImportGraph)

/-- The files that lead to a file, from the reverse of the edges. -/
theorem filesIn_reverse_scope (h : graph.lookup.scope.Nodup) (path : String) :
    ImportIndex.filesIn (reverse graph.next graph.lookup.scope) path = graph.previous path := by
  rw [filesIn_reverse _ h, previous, sourcesIn, edges, List.filter_map, List.map_map]
  exact (List.map_id _).symm

/-- The reverse of the edges has an entry for every file that the scope leads to. -/
theorem length_reverse_scope :
    (reverse graph.next graph.lookup.scope).length = graph.referencedFiles.length := by
  have hkeys := map_fst_reverse graph.next graph.lookup.scope
  rw [referencedFiles, edges, List.flatMap_map, ← hkeys, List.length_map]

end ImportGraph

/-- No file is in the scope twice. -/
theorem Session.nodup_scope (project : Project) : (scope project).Nodup := by
  unfold scope
  split
  · exact Discovery.nodup_files ‹_›
  · exact List.nodup_nil

end CodeAtlas.Traversal
