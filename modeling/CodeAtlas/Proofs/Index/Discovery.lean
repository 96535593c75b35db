import CodeAtlas.Index.Discovery
import CodeAtlas.Proofs.Outcome
import CodeAtlas.Proofs.Store.Lawful
import Mathlib.Data.List.Nodup

/-!
# What a search for source files finds

Every file that is found stands under its canonical path and was listed, so in a lawful view it is
there. The search goes through the listings of the patterns one path at a time, and each step either
leaves the files as they are or adds the path it looks at (`mem_files_visit`).
-/

namespace CodeAtlas.Discovery

variable {view : FileView} {excludes : Except Failure (String → Bool)} {limit : Int}

/-! ## 1. One step -/

/-- **One step adds the path it looks at, or nothing.** -/
theorem files_visit {found found' : Discovery} {path : String}
    (h : visit view excludes limit found path = .ok found') :
    found'.files = found.files ∨ found'.files = found.files ++ [view.canonical path] := by
  unfold visit at h
  dsimp only at h
  split at h
  · cases h
    exact Or.inl rfl
  · cases excludes with
    | error e => cases h
    | ok isExcluded =>
      rw [← Except.ok.inj h]
      dsimp only
      split
      · exact Or.inl rfl
      · split
        · exact Or.inl rfl
        · exact Or.inr rfl

theorem mem_files_visit {found found' : Discovery} {path p : String}
    (h : visit view excludes limit found path = .ok found') (hp : p ∈ found'.files) :
    p ∈ found.files ∨ p = view.canonical path := by
  rcases files_visit h with hfiles | hfiles
  · exact Or.inl (hfiles ▸ hp)
  · rw [hfiles, List.mem_append, List.mem_singleton] at hp
    exact hp

/-! ## 2. What is found -/

/-- **What is found was listed**, and stands under its canonical path. -/
theorem exists_listed {options : DiscoveryOptions} {engine : Glob.Engine} {found : Discovery}
    (h : run view options engine = .ok found) {p : String} (hp : p ∈ found.files) :
    ∃ pattern paths, view.list pattern = .ok paths ∧ ∃ path ∈ paths, p = view.canonical path := by
  let P (found : Discovery) : Prop := ∀ p ∈ found.files,
    ∃ pattern paths, view.list pattern = .ok paths ∧ ∃ path ∈ paths, p = view.canonical path
  have hpatterns : ∀ s pattern s', pattern ∈ options.includePatterns → P s →
      visitPattern view (engine.compile options.excludePatterns) options.maxFiles s pattern
        = .ok s' → P s' := by
    intro s pattern s' _ hs hstep
    unfold visitPattern at hstep
    split at hstep
    · cases hstep
      exact hs
    · obtain ⟨paths, hlist, hstep⟩ := Outcome.exists_of_bind_eq_ok hstep
      refine Outcome.foldlM_of_invariant (P := P) (fun t path t' hpath ht hvisit q hq => ?_) hs hstep
      rcases mem_files_visit hvisit hq with hq | rfl
      · exact ht q hq
      · exact ⟨pattern, paths, hlist, path, hpath, rfl⟩
  exact Outcome.foldlM_of_invariant (P := P) hpatterns (fun p hp => absurd hp List.not_mem_nil) h p hp

variable {options : DiscoveryOptions} {engine : Glob.Engine} {found : Discovery} {p : String}

/-- What a search has found has been seen, and nothing is found twice. -/
structure IsDistinct (found : Discovery) : Prop where
  seen : found.files ⊆ found.seen
  nodup : found.files.Nodup

theorem IsDistinct.visit {found' : Discovery} {path : String} (h : found.IsDistinct)
    (hvisit : Discovery.visit view excludes limit found path = .ok found') : found'.IsDistinct := by
  unfold Discovery.visit at hvisit
  dsimp only at hvisit
  split at hvisit
  · cases hvisit
    exact h
  · rename_i hnew
    rw [Bool.or_eq_true, not_or, List.contains_iff_mem] at hnew
    cases excludes with
    | error e => cases hvisit
    | ok isExcluded =>
      have hseen : found.files ⊆ found.seen ++ [view.canonical path] :=
        List.Subset.trans h.seen (List.subset_append_left _ _)
      rw [← Except.ok.inj hvisit]
      dsimp only
      split
      · exact ⟨hseen, h.nodup⟩
      · split
        · exact ⟨hseen, h.nodup⟩
        · refine ⟨List.append_subset.2 ⟨hseen, List.subset_append_right _ _⟩, ?_⟩
          have hfiles := h.nodup.concat fun hmem => hnew.2 (h.seen hmem)
          rwa [List.concat_eq_append] at hfiles

/-- **No file is found twice.** -/
theorem nodup_files (h : run view options engine = .ok found) : found.files.Nodup := by
  have hpatterns : ∀ s pattern s', pattern ∈ options.includePatterns → s.IsDistinct →
      visitPattern view (engine.compile options.excludePatterns) options.maxFiles s pattern
        = .ok s' → s'.IsDistinct := by
    intro s pattern s' _ hs hstep
    unfold visitPattern at hstep
    split at hstep
    · cases hstep
      exact hs
    · obtain ⟨paths, -, hstep⟩ := Outcome.exists_of_bind_eq_ok hstep
      exact Outcome.foldlM_of_invariant (fun _ _ _ _ ht hvisit => ht.visit hvisit) hs hstep
  exact (Outcome.foldlM_of_invariant hpatterns ⟨List.nil_subset _, List.nodup_nil⟩ h).nodup

/-- A file that is found is there, under its canonical path. -/
theorem contains_of_mem_files (hlaw : view.Lawful) (h : run view options engine = .ok found)
    (hp : p ∈ found.files) : view.contains p = true := by
  obtain ⟨pattern, paths, hlist, path, hpath, rfl⟩ := exists_listed h hp
  rw [hlaw.contains_canonical]
  exact hlaw.contains_of_mem_list pattern paths hlist path hpath

theorem canonical_of_mem_files (hlaw : view.Lawful) (h : run view options engine = .ok found)
    (hp : p ∈ found.files) : view.canonical p = p := by
  obtain ⟨-, -, -, path, -, rfl⟩ := exists_listed h hp
  exact hlaw.canonical_canonical path

/-! ## 3. When a search fails -/

/-- The patterns of what is left out by default can be read. -/
theorem exists_excludes : ∃ isExcluded,
    Glob.gitignore.compile ({} : DiscoveryOptions).excludePatterns = .ok isExcluded := by
  apply Outcome.exists_of_isSome_toOption
  decide +kernel

theorem exists_visit_of_ok (view : FileView) (isExcluded : String → Bool) (limit : Int) (found : Discovery)
    (path : String) :
    ∃ found', visit view (.ok isExcluded) limit found path = .ok found' := by
  unfold visit
  dsimp only
  split
  · exact ⟨found, rfl⟩
  · exact ⟨_, rfl⟩

/-- The search for all source files goes through one listing. -/
theorem exists_run_default : ∃ pattern isExcluded, DiscoveryOptions.allSources = [pattern] ∧
    ∀ view : FileView, run view {} = (do
      (← view.list pattern).foldlM (visit view (.ok isExcluded) ({} : DiscoveryOptions).maxFiles) {}) := by
  obtain ⟨isExcluded, hexcludes⟩ := exists_excludes
  obtain ⟨pattern, hall⟩ : ∃ pattern, DiscoveryOptions.allSources = [pattern] := ⟨_, rfl⟩
  refine ⟨pattern, isExcluded, hall, fun view => ?_⟩
  have hpatterns : ({} : DiscoveryOptions).includePatterns = [pattern] := hall
  rw [run, hexcludes, hpatterns, List.foldlM_cons]
  simp only [visitPattern, Bool.false_eq_true, if_false, List.foldlM_nil, bind_pure]

/-- **A search for all source files fails only if they cannot be listed.** -/
theorem exists_list_error {e : Failure} (h : run view {} = .error e) :
    ∃ pattern ∈ DiscoveryOptions.allSources, view.list pattern = .error e := by
  obtain ⟨pattern, isExcluded, hall, hrun⟩ := exists_run_default
  refine ⟨pattern, hall ▸ List.mem_singleton_self pattern, ?_⟩
  rw [hrun] at h
  cases hlist : view.list pattern with
  | error e' =>
    rw [hlist] at h
    have he : e' = e := Except.error.inj h
    rw [he]
  | ok paths =>
    obtain ⟨found, hfound⟩ :=
      Outcome.exists_foldlM (exists_visit_of_ok view isExcluded ({} : DiscoveryOptions).maxFiles) paths {}
    rw [hlist] at h
    cases hfound.symm.trans h

/-- The pattern of all source files can be read. -/
theorem exists_compile {pattern : String} (h : pattern ∈ DiscoveryOptions.allSources) :
    ∃ isSelected, Glob.gitignore.compile [pattern] = .ok isSelected := by
  have hsome : ∀ pattern ∈ DiscoveryOptions.allSources,
      (Glob.gitignore.compile [pattern]).toOption.isSome = true := by
    decide +kernel
  exact Outcome.exists_of_isSome_toOption (hsome pattern h)

/-- The source files of a store in memory can be listed. -/
theorem exists_list_memory (store : MemoryStore) {pattern : String}
    (h : pattern ∈ DiscoveryOptions.allSources) : ∃ paths, store.view.list pattern = .ok paths := by
  obtain ⟨isSelected, hcompile⟩ := exists_compile h
  rw [MemoryStore.view_list]
  exact ⟨_, store.list_of_compile hcompile⟩

theorem exists_run_memory (store : MemoryStore) : ∃ found, run store.view {} = .ok found := by
  cases h : run store.view {} with
  | ok found => exact ⟨found, rfl⟩
  | error e =>
    obtain ⟨pattern, hpattern, herror⟩ := exists_list_error h
    obtain ⟨paths, hpaths⟩ := exists_list_memory store hpattern
    cases herror.symm.trans hpaths

end CodeAtlas.Discovery
