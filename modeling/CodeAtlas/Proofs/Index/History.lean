import CodeAtlas.Proofs.Index.Scan
import Mathlib.Data.List.Nodup

/-!
# An index grows file by file

On files that do not change, an index says exactly what the files that it has read declare
(`IsExact`), and every action keeps that. Reading one file more is the step that carries it: the
file is new, so it comes last under each of its names (`resolve_addFile`). A scan goes on from what
the index has met alone, so it can be cut in two anywhere (`agrees_andThen`), and doing it again
changes nothing (`indexFiles_again`). A path whose language cannot be told interrupts a scan, in one
call as in two; no canonical path is one.
-/

namespace CodeAtlas

instance (view : FileView) (path name : String) : Decidable (view.Declares path name) :=
  match hlanguage : Language.ofFile path, hread : view.read path with
  | .error _, _ => isFalse fun ⟨_, _, hok, _, _⟩ => nomatch hlanguage.symm.trans hok
  | .ok _, .error _ => isFalse fun ⟨_, _, _, hok, _⟩ => nomatch hread.symm.trans hok
  | .ok _, .ok _ => decidable_of_iff _ (FileView.declares_iff hlanguage hread).symm

namespace ImportIndex

variable {view : FileView} {index : ImportIndex} {path name : String} {paths : List String}

/-! ## 1. Names with their files -/

/-- One more item at the end is none that was there before. -/
theorem nodup_snoc (h : paths.Nodup) (hnew : path ∉ paths) : (paths ++ [path]).Nodup := by
  rw [← List.concat_eq_append]
  exact h.concat hnew

theorem nodup_addOnce (h : paths.Nodup) (path : String) : (addOnce paths path).Nodup := by
  by_cases hmem : path ∈ paths
  · rwa [addOnce_of_mem hmem]
  · rw [addOnce_of_notMem hmem]
    exact nodup_snoc h hmem

/-- The names of entries are kept as their files are, each once. -/
theorem map_fst_insert (name path : String) (entries : List (String × List String)) :
    (insert name path entries).map (·.1) = addOnce (entries.map (·.1)) name := by
  induction entries with
  | nil => rfl
  | cons entry rest ih =>
    obtain ⟨n, paths⟩ := entry
    rw [insert]
    by_cases hn : n = name
    · rw [if_pos (beq_iff_eq.2 hn), addOnce_of_mem]
      · rfl
      · exact List.mem_cons.2 (Or.inl hn.symm)
    · rw [if_neg (mt beq_iff_eq.1 hn), List.map_cons, ih, List.map_cons]
      by_cases hmem : name ∈ rest.map (·.1)
      · rw [addOnce_of_mem hmem, addOnce_of_mem (List.mem_cons_of_mem n hmem)]
      · rw [addOnce_of_notMem hmem, addOnce_of_notMem, List.cons_append]
        rw [List.mem_cons, not_or]
        exact ⟨Ne.symm hn, hmem⟩

theorem map_fst_foldl (names : List String) (path : String)
    (entries : List (String × List String)) :
    (names.foldl (fun entries name => insert name path entries) entries).map (·.1)
      = names.foldl addOnce (entries.map (·.1)) := by
  induction names generalizing entries with
  | nil => rfl
  | cons name names ih => rw [List.foldl_cons, ih, map_fst_insert, List.foldl_cons]

theorem nodup_foldl_addOnce {known : List String} (h : known.Nodup) (names : List String) :
    (names.foldl addOnce known).Nodup := by
  induction names generalizing known with
  | nil => exact h
  | cons name names ih => exact ih (nodup_addOnce h name)

theorem mem_foldl_addOnce {known names : List String} :
    name ∈ names.foldl addOnce known ↔ name ∈ known ∨ name ∈ names := by
  induction names generalizing known with
  | nil => simp
  | cons n names ih => rw [List.foldl_cons, ih, mem_addOnce, List.mem_cons, or_assoc]

/-- **A file that is new comes last** under each of its names. -/
theorem resolve_addFile {names : List String} (h : path ∉ index.resolve name) :
    (index.addFile path names).resolve name
      = if name ∈ names then index.resolve name ++ [path] else index.resolve name := by
  have hnew : path ∉ filesIn index.entries name := h
  have hfiles := filesIn_foldl names path name index.entries
  rw [addOnce_of_notMem hnew] at hfiles
  exact hfiles

/-! ## 2. An index says what the files read declare -/

/-- **An index is exact**: it has met no file twice, and it has for each name the files read that
declare it, in the order in which they were read. -/
structure IsExact (index : ImportIndex) (view : FileView) : Prop where
  nodup_scanned : index.scanned.Nodup
  nodup_skipped : index.skipped.Nodup
  disjoint : ∀ path ∈ index.scanned, path ∉ index.skipped
  canRead_scanned : ∀ path ∈ index.scanned, view.canRead path = true
  canRead_skipped : ∀ path ∈ index.skipped, view.canRead path = false
  resolve : ∀ name, index.resolve name = index.scanned.filter fun path => view.Declares path name
  nodup_names : index.names.Nodup
  mem_names : ∀ name, name ∈ index.names ↔ index.resolve name ≠ []

namespace IsExact

theorem empty (view : FileView) : IsExact {} view where
  nodup_scanned := List.nodup_nil
  nodup_skipped := List.nodup_nil
  disjoint _ h := absurd h List.not_mem_nil
  canRead_scanned _ h := absurd h List.not_mem_nil
  canRead_skipped _ h := absurd h List.not_mem_nil
  resolve _ := rfl
  nodup_names := List.nodup_nil
  mem_names _ := ⟨fun h => absurd h List.not_mem_nil, fun h => absurd rfl h⟩

/-- Whether the index counts as built does not matter. -/
theorem built (h : index.IsExact view) : IsExact { index with isBuilt := true } view :=
  ⟨h.nodup_scanned, h.nodup_skipped, h.disjoint, h.canRead_scanned, h.canRead_skipped, h.resolve,
    h.nodup_names, h.mem_names⟩

/-- **Reading one file more keeps the index exact.** -/
theorem addFile (h : index.IsExact view) (hnew : ¬ index.covers path = true)
    {language : Option Language} (hlanguage : Language.ofFile path = .ok language) {text : String}
    (hread : view.read path = .ok text) :
    (index.addFile path (Index.declaredNames language text)).IsExact view := by
  rw [covers_iff, not_or] at hnew
  have hdeclares : ∀ name, name ∈ Index.declaredNames language text ↔ view.Declares path name :=
    fun name => (FileView.declares_iff hlanguage hread).symm
  have hunknown : ∀ name, path ∉ index.resolve name := by
    intro name hmem
    rw [h.resolve] at hmem
    exact hnew.1 (List.mem_of_mem_filter hmem)
  have hresolve : ∀ name, (index.addFile path (Index.declaredNames language text)).resolve name
      = if name ∈ Index.declaredNames language text then index.resolve name ++ [path]
        else index.resolve name := fun name => resolve_addFile (hunknown name)
  have hnames : (index.addFile path (Index.declaredNames language text)).names
      = (Index.declaredNames language text).foldl addOnce index.names := map_fst_foldl _ _ _
  refine ⟨nodup_snoc h.nodup_scanned hnew.1, h.nodup_skipped, ?_, ?_, h.canRead_skipped, ?_, ?_, ?_⟩
  · intro p hp
    rcases List.mem_append.1 hp with hp | hp
    · exact h.disjoint p hp
    · rw [List.mem_singleton.1 hp]
      exact hnew.2
  · intro p hp
    rcases List.mem_append.1 hp with hp | hp
    · exact h.canRead_scanned p hp
    · rw [List.mem_singleton.1 hp, FileView.canRead_of_ok hread]
  · intro name
    have hscanned : (index.addFile path (Index.declaredNames language text)).scanned
        = index.scanned ++ [path] := rfl
    -- the file comes last among those read, as it does under its names
    rw [hresolve, hscanned, List.filter_append, ← h.resolve]
    by_cases hname : view.Declares path name
    · have hlast : ([path].filter fun path => view.Declares path name) = [path] := by simp [hname]
      rw [if_pos ((hdeclares name).2 hname), hlast]
    · have hnone : ([path].filter fun path => view.Declares path name) = [] := by simp [hname]
      rw [if_neg (mt (hdeclares name).1 hname), hnone, List.append_nil]
  · rw [hnames]
    exact nodup_foldl_addOnce h.nodup_names _
  · intro name
    rw [hnames, mem_foldl_addOnce, hresolve, h.mem_names]
    by_cases hname : name ∈ Index.declaredNames language text
    · rw [if_pos hname]
      exact iff_of_true (Or.inr hname) (List.append_ne_nil_of_right_ne_nil _ nofun)
    · rw [if_neg hname, or_iff_left hname]

theorem skipFile (h : index.IsExact view) (hnew : ¬ index.covers path = true) {e : Failure}
    (hread : view.read path = .error e) : (index.skipFile path).IsExact view := by
  rw [covers_iff, not_or] at hnew
  refine ⟨h.nodup_scanned, nodup_snoc h.nodup_skipped hnew.2, fun p hp hmem => ?_,
    h.canRead_scanned, fun p hp => ?_, h.resolve, h.nodup_names, h.mem_names⟩
  · rcases List.mem_append.1 hmem with hmem | hmem
    · exact h.disjoint p hp hmem
    · rw [List.mem_singleton.1 hmem] at hp
      exact hnew.1 hp
  · rcases List.mem_append.1 hp with hp | hp
    · exact h.canRead_skipped p hp
    · rw [List.mem_singleton.1 hp, FileView.canRead_of_error hread]

theorem indexFiles (h : index.IsExact view) (paths : List String) :
    (indexFiles view index paths).index.IsExact view := by
  induction index, paths using indexFiles_induction view with
  | nil index => exact h.built
  | covered index path rest hcovers ih =>
    rw [indexFiles_of_covers hcovers]
    exact ih h
  | stopped index path rest e hcovers hlanguage =>
    rw [indexFiles_of_address_error hcovers hlanguage]
    exact h
  | unreadable index path rest language e hcovers hlanguage hread ih =>
    rw [indexFiles_of_unreadable hcovers hlanguage hread]
    exact ih (h.skipFile hcovers hread)
  | readable index path rest language text hcovers hlanguage hread ih =>
    rw [indexFiles_of_readable hcovers hlanguage hread]
    exact ih (h.addFile hcovers hlanguage hread)

/-- **Every action keeps the index exact.** -/
theorem perform (h : index.IsExact view) (action : Action) :
    (perform view index action).index.IsExact view := by
  cases action with
  | build options =>
    rw [ImportIndex.perform, build]
    dsimp only
    cases Discovery.run view options with
    | error e => exact empty view
    | ok found => exact (empty view).indexFiles found.files
  | indexFiles paths => exact h.indexFiles paths
  | clear => exact empty view

end IsExact

theorem isExact_after (view : FileView) (actions : List Action) :
    (after view {} actions).IsExact view := by
  suffices h : ∀ index : ImportIndex, index.IsExact view → (after view index actions).IsExact view
    from h {} (IsExact.empty view)
  induction actions with
  | nil => exact fun index h => h
  | cons action rest ih => exact fun index h => ih _ (h.perform action)

/-! ## 3. Scans done in two, and done again -/

theorem isBuilt_of_outcome (h : (indexFiles view index paths).outcome = .ok ()) :
    (indexFiles view index paths).index.isBuilt = true := by
  induction index, paths using indexFiles_induction view with
  | nil index => rfl
  | covered index path rest hcovers ih =>
    rw [indexFiles_of_covers hcovers] at h ⊢
    exact ih h
  | stopped index path rest e hcovers hlanguage =>
    rw [indexFiles_of_address_error hcovers hlanguage] at h
    cases h
  | unreadable index path rest language e hcovers hlanguage hread ih =>
    rw [indexFiles_of_unreadable hcovers hlanguage hread] at h ⊢
    exact ih h
  | readable index path rest language text hcovers hlanguage hread ih =>
    rw [indexFiles_of_readable hcovers hlanguage hread] at h ⊢
    exact ih h

/-- **Two scans agree** in all they come to. They may differ in whether the index counts as built if
they were interrupted, which only a call that has come to its end decides. -/
structure Scan.Agrees (a b : Scan) : Prop where
  outcome : a.outcome = b.outcome
  lines : a.lines = b.lines
  entries : a.index.entries = b.index.entries
  scanned : a.index.scanned = b.index.scanned
  skipped : a.index.skipped = b.index.skipped
  index : a.outcome = .ok () → a.index = b.index

namespace Scan

variable {a b : Scan}

theorem Agrees.refl (a : Scan) : a.Agrees a :=
  ⟨rfl, rfl, rfl, rfl, rfl, fun _ => rfl⟩

theorem Agrees.reported (h : a.Agrees b) (line : Log.Line) :
    (a.reported line).Agrees (b.reported line) :=
  ⟨h.outcome, congrArg (line :: ·) h.lines, h.entries, h.scanned, h.skipped, h.index⟩

theorem andThen_reported (line : Log.Line) (scan : Scan) (next : ImportIndex → Scan) :
    (scan.reported line).andThen next = (scan.andThen next).reported line := by
  obtain ⟨index, lines, outcome⟩ := scan
  cases outcome <;> rfl

end Scan

/-- Whether an index counts as built is of no consequence to a scan. -/
theorem agrees_built (view : FileView) (index : ImportIndex) (paths : List String) :
    (indexFiles view index paths).Agrees
      (indexFiles view { index with isBuilt := true } paths) := by
  induction index, paths using indexFiles_induction view with
  | nil index => exact Scan.Agrees.refl _
  | covered index path rest hcovers ih =>
    have hcovers' : ({ index with isBuilt := true } : ImportIndex).covers path = true := hcovers
    rw [indexFiles_of_covers hcovers, indexFiles_of_covers hcovers']
    exact ih
  | stopped index path rest e hcovers hlanguage =>
    have hcovers' : ¬ ({ index with isBuilt := true } : ImportIndex).covers path = true := hcovers
    rw [indexFiles_of_address_error hcovers hlanguage,
      indexFiles_of_address_error hcovers' hlanguage]
    exact ⟨rfl, rfl, rfl, rfl, rfl, nofun⟩
  | unreadable index path rest language e hcovers hlanguage hread ih =>
    have hcovers' : ¬ ({ index with isBuilt := true } : ImportIndex).covers path = true := hcovers
    rw [indexFiles_of_unreadable hcovers hlanguage hread,
      indexFiles_of_unreadable hcovers' hlanguage hread]
    exact ih.reported _
  | readable index path rest language text hcovers hlanguage hread ih =>
    have hcovers' : ¬ ({ index with isBuilt := true } : ImportIndex).covers path = true := hcovers
    rw [indexFiles_of_readable hcovers hlanguage hread,
      indexFiles_of_readable hcovers' hlanguage hread]
    exact ih

/-- **A scan can be cut in two** anywhere. -/
theorem agrees_andThen (view : FileView) (index : ImportIndex) (paths more : List String) :
    (indexFiles view index (paths ++ more)).Agrees
      ((indexFiles view index paths).andThen fun index => indexFiles view index more) := by
  induction index, paths using indexFiles_induction view with
  -- the first call ends here, so the second one finds an index that counts as built
  | nil index => exact agrees_built view index more
  | covered index path rest hcovers ih =>
    rw [List.cons_append, indexFiles_of_covers hcovers, indexFiles_of_covers hcovers]
    exact ih
  | stopped index path rest e hcovers hlanguage =>
    rw [List.cons_append, indexFiles_of_address_error hcovers hlanguage,
      indexFiles_of_address_error hcovers hlanguage]
    exact Scan.Agrees.refl _
  | unreadable index path rest language e hcovers hlanguage hread ih =>
    rw [List.cons_append, indexFiles_of_unreadable hcovers hlanguage hread,
      indexFiles_of_unreadable hcovers hlanguage hread, Scan.andThen_reported]
    exact ih.reported _
  | readable index path rest language text hcovers hlanguage hread ih =>
    rw [List.cons_append, indexFiles_of_readable hcovers hlanguage hread,
      indexFiles_of_readable hcovers hlanguage hread]
    exact ih

/-- **Two calls that come to their end leave what one call leaves.** -/
theorem index_append {more : List String} (h : (indexFiles view index paths).outcome = .ok ())
    (hmore : (indexFiles view (indexFiles view index paths).index more).outcome = .ok ()) :
    (indexFiles view index (paths ++ more)).index
      = (indexFiles view (indexFiles view index paths).index more).index := by
  have hagrees := agrees_andThen view index paths more
  rw [Scan.andThen, h] at hagrees
  exact hagrees.index (hagrees.outcome.trans hmore)

theorem indexFiles_of_forall_covers (h : ∀ path ∈ paths, index.covers path = true) :
    indexFiles view index paths = ⟨{ index with isBuilt := true }, [], .ok ()⟩ := by
  induction paths with
  | nil => rfl
  | cons path rest ih =>
    rw [indexFiles_of_covers (h path List.mem_cons_self)]
    exact ih fun p hp => h p (List.mem_cons_of_mem path hp)

/-- **A scan that has come to its end changes nothing when it is done again.** -/
theorem indexFiles_again (h : (indexFiles view index paths).outcome = .ok ()) :
    indexFiles view (indexFiles view index paths).index paths
      = ⟨(indexFiles view index paths).index, [], .ok ()⟩ := by
  have hcovers := fun path (hpath : path ∈ paths) => covers_of_mem h hpath
  have hbuilt := isBuilt_of_outcome h
  rw [indexFiles_of_forall_covers hcovers, ← hbuilt]

/-! ## 4. Histories -/

/-- **What an index of some files guarantees.** -/
structure IsIncremental (index : ImportIndex) (view : FileView) : Prop extends
    index.IsExact view where
  /-- A call that comes to its end adds the files not met before, each once and in their order. -/
  files : ∀ paths, (indexFiles view index paths).outcome = .ok () →
    (indexFiles view index paths).index.scanned
        = index.scanned ++ (index.fresh paths).filter view.canRead ∧
      (indexFiles view index paths).index.skipped
        = index.skipped ++ (index.fresh paths).filter fun path => !view.canRead path
  /-- Two calls leave the index that one call leaves. -/
  append : ∀ paths more, (indexFiles view index paths).outcome = .ok () →
    (indexFiles view (indexFiles view index paths).index more).outcome = .ok () →
    (indexFiles view index (paths ++ more)).index
      = (indexFiles view (indexFiles view index paths).index more).index
  /-- They also agree if one of them is interrupted, as is the one call then. -/
  andThen : ∀ paths more, (indexFiles view index (paths ++ more)).Agrees
    ((indexFiles view index paths).andThen fun index => indexFiles view index more)
  /-- Files that have been met change nothing but that the index counts as built. -/
  covered : ∀ paths, (∀ path ∈ paths, index.covers path = true) →
    indexFiles view index paths = ⟨{ index with isBuilt := true }, [], .ok ()⟩
  /-- A call that is repeated changes nothing. -/
  again : ∀ paths, (indexFiles view index paths).outcome = .ok () →
    indexFiles view (indexFiles view index paths).index paths
      = ⟨(indexFiles view index paths).index, [], .ok ()⟩
  /-- A call comes to its end if the language of every path can be told. -/
  outcome : ∀ paths, (∀ path ∈ paths, ∃ language, Language.ofFile path = .ok language) →
    (indexFiles view index paths).outcome = .ok ()
  /-- Building gives what it gives in a new index. -/
  build : ∀ options, build view options index = build view options {}

/-- **An index is incremental after every history**, on files that do not change. -/
theorem isIncremental_after (view : FileView) (actions : List Action) :
    (after view {} actions).IsIncremental view where
  toIsExact := isExact_after view actions
  files _ h := files_indexFiles h
  append _ _ h hmore := index_append h hmore
  andThen paths more := agrees_andThen view _ paths more
  covered _ h := indexFiles_of_forall_covers h
  again _ h := indexFiles_again h
  outcome _ h := outcome_indexFiles h
  build _ := rfl

end ImportIndex

end CodeAtlas
