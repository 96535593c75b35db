import CodeAtlas.Proofs.Traversal.Contents
import CodeAtlas.Proofs.Traversal.Scope
import Mathlib.Data.List.Find

/-!
# A file that comes to a project

A file that is new in a store stands behind all others, so a search for source files finds it last
or not at all, and whatever is looked for under other paths is found as before. If no import of a
report is looked for under its path, and it declares none of the names that the files of the report
refer to, then no file that the traversal visited leads anywhere else than before, and the report
stays what it was (`Session.outcome_analyze_add`).
-/

namespace CodeAtlas

/-! ## 1. Stores with one file more -/

namespace MemoryStore

variable {store : MemoryStore} {path text p : String}

/-- **A new file comes last.** -/
theorem files_add_of_new (h : store.contains path = false) :
    (store.add path text).files = store.files ++ [(Path.normalize path, text)] :=
  put_of_new fun file hfile hkey => by
    rw [contains_iff.2 ⟨file, hfile, hkey⟩] at h
    cases h

theorem text?_add_self (h : store.contains path = false) :
    (store.add path text).text? path = some text := by
  have hnone : store.files.find? (·.1 == Path.normalize path) = none := by
    rwa [contains, text?, Option.isSome_map, Option.isSome_eq_false_iff, Option.isNone_iff_eq_none]
      at h
  have hlast : [(Path.normalize path, text)].find? (·.1 == Path.normalize path)
      = some (Path.normalize path, text) := List.find?_cons_of_pos (beq_self_eq_true _)
  rw [text?, files_add_of_new h, List.find?_append, hnone, Option.none_or, hlast, Option.map_some]

theorem text?_add_of_ne (h : store.contains path = false)
    (hne : Path.normalize p ≠ Path.normalize path) :
    (store.add path text).text? p = store.text? p := by
  have hlast : [(Path.normalize path, text)].find? (·.1 == Path.normalize p) = none :=
    List.find?_cons_of_neg (mt beq_iff_eq.1 hne.symm)
  rw [text?, files_add_of_new h, List.find?_append, hlast, Option.or_none, text?]

theorem contains_add_of_ne (h : store.contains path = false)
    (hne : Path.normalize p ≠ Path.normalize path) :
    (store.add path text).contains p = store.contains p := by
  rw [contains, text?_add_of_ne h hne, contains]

theorem read_add_of_ne (h : store.contains path = false)
    (hne : Path.normalize p ≠ Path.normalize path) :
    (store.add path text).read p = store.read p := by
  rw [read, text?_add_of_ne h hne, read]

theorem ne_of_contains (h : store.contains path = false) (hp : store.contains p = true) :
    Path.normalize p ≠ Path.normalize path := by
  intro heq
  rw [contains, ← text?_normalize, heq, text?_normalize, ← contains, h] at hp
  cases hp

/-- A listing tells of a new file last, or not at all. -/
theorem list_add_of_new (text : String) (h : store.contains path = false) {pattern : String}
    {engine : Glob.Engine} {isSelected : String → Bool}
    (hcompile : engine.compile [pattern] = .ok isSelected) :
    ∃ old, store.list pattern engine = .ok old ∧
      ((store.add path text).list pattern engine = .ok old ∨
        (store.add path text).list pattern engine = .ok (old ++ [Path.normalize path])) := by
  refine ⟨_, list_of_compile store hcompile, ?_⟩
  have hrelative : (store.add path text).relative = store.relative := rfl
  have hlast : ([Path.normalize path].filter fun p => isSelected (store.relative p)) = [] ∨
      ([Path.normalize path].filter fun p => isSelected (store.relative p))
        = [Path.normalize path] :=
    List.sublist_singleton.1 List.filter_sublist
  rw [list_of_compile _ hcompile, files_add_of_new h, hrelative, List.map_append, List.filter_append,
    List.map_singleton]
  rcases hlast with hlast | hlast
  · exact Or.inl (by rw [hlast, List.append_nil])
  · exact Or.inr (by rw [hlast])

end MemoryStore

/-- **A new file is found last**, or not at all. -/
theorem Discovery.files_run_add {store : MemoryStore} {path text : String}
    (h : store.contains path = false) {found found' : Discovery}
    (hfound : run store.view {} = .ok found)
    (hfound' : run (store.add path text).view {} = .ok found') :
    found'.files = found.files ∨ found'.files = found.files ++ [Path.normalize path] := by
  obtain ⟨pattern, isExcluded, hall, hrun⟩ := exists_run_default
  obtain ⟨isSelected, hcompile⟩ := exists_compile (hall ▸ List.mem_singleton_self pattern)
  obtain ⟨old, hold, hnew⟩ := MemoryStore.list_add_of_new text h hcompile
  have hvisit : visit (store.add path text).view = visit store.view := rfl
  rw [hrun, MemoryStore.view_list, hold] at hfound
  rw [hrun, MemoryStore.view_list, hvisit] at hfound'
  have hfound : old.foldlM (visit store.view (.ok isExcluded) ({} : DiscoveryOptions).maxFiles) {}
      = .ok found := hfound
  rcases hnew with hnew | hnew
  · rw [hnew] at hfound'
    left
    have := hfound.symm.trans hfound'
    rw [Except.ok.inj this]
  · rw [hnew] at hfound'
    have hfound' : (old ++ [Path.normalize path]).foldlM
        (visit store.view (.ok isExcluded) ({} : DiscoveryOptions).maxFiles) {} = .ok found' := hfound'
    rw [List.foldlM_append, hfound] at hfound'
    obtain ⟨mid, hmid, hlast⟩ := Outcome.exists_of_bind_eq_ok hfound'
    cases hmid
    rw [List.foldlM_cons] at hlast
    obtain ⟨next, hnext, hlast⟩ := Outcome.exists_of_bind_eq_ok hlast
    rw [← Except.ok.inj hlast]
    rcases files_visit hnext with hfiles | hfiles
    · exact Or.inl hfiles
    · right
      rw [hfiles, MemoryStore.view_canonical, Path.normalize_normalize]

namespace Traversal

/-! ## 2. What a report depends on -/

namespace ImportGraph

/-- The specifiers that an import is tried with: a package that consists of dots alone is tried with
every imported name, and by itself. -/
def specifiersOf (i : Import) : List String :=
  (if !i.source.isEmpty && i.source.toList.all (· == '.') then i.specifiers.map (i.source ++ ·)
    else []) ++ [i.source]

/-- The paths that an import in a file is looked for under. -/
def candidatesOf (path : String) (i : Import) : List String :=
  (specifiersOf i).flatMap (Specifier.candidates (Language.ofPath? path) path)

variable {view now : FileView} {path : String}

/-- An import means the same files where all of its specifiers do. -/
theorem targetsOf_congr {i : Import} (hcanonical : now.canonical = view.canonical)
    (h : ∀ specifier ∈ specifiersOf i,
      now.resolveImport path specifier = view.resolveImport path specifier) :
    targetsOf now path i = targetsOf view path i := by
  have hsource : now.resolveImport path i.source = view.resolveImport path i.source :=
    h i.source (List.mem_append_right _ (List.mem_singleton_self _))
  unfold specifiersOf at h
  unfold targetsOf
  dsimp only
  rw [hsource, hcanonical]
  split
  · rename_i hdots
    rw [if_pos hdots] at h
    have hmodules : (i.specifiers.filterMap fun name =>
          (now.resolveImport path (i.source ++ name)).map view.canonical)
        = i.specifiers.filterMap fun name =>
          (view.resolveImport path (i.source ++ name)).map view.canonical :=
      List.filterMap_congr fun name hname => by
        rw [h _ (List.mem_append_left _ (List.mem_map.2 ⟨name, hname, rfl⟩))]
    rw [hmodules]
  · rfl

/-- The files that a file leads to depend on what its imports mean and on what the names that it
looks up stand for. -/
theorem nextOf_congr {a b : ImportGraph} {file : LoadedFile}
    (htargets : ∀ i ∈ file.outline.imports,
      targetsOf b.project.view path i = targetsOf a.project.view path i)
    (hchoose : ∀ name ∈ referencedNames file,
      b.lookup.choose? path name file.outline.imports
        = a.lookup.choose? path name file.outline.imports) :
    b.nextOf path file = a.nextOf path file := by
  have himported : file.outline.imports.flatMap (targetsOf b.project.view path)
      = file.outline.imports.flatMap (targetsOf a.project.view path) :=
    List.flatMap_congr htargets
  have hresolved : resolved b.project.view path file.outline.imports
      = resolved a.project.view path file.outline.imports :=
    List.filter_congr fun i hi => by rw [htargets i hi]
  have hopen : openNames b.project.view path file = openNames a.project.view path file := by
    rw [openNames, openNames, hresolved]
  have hdeclaring : (openNames a.project.view path file).filterMap
        (fun name => b.lookup.choose? path name file.outline.imports)
      = (openNames a.project.view path file).filterMap
        (fun name => a.lookup.choose? path name file.outline.imports) :=
    List.filterMap_congr fun name hname => hchoose name (List.mem_of_mem_filter hname)
  unfold nextOf
  dsimp only
  rw [himported, hopen, hdeclaring]

/-- **A forward report depends on the files visited only**: on what loading them gives, and on where
they lead. -/
theorem report_forward_congr {a b : ImportGraph} {entry : String} {depth : Nat}
    (hload : ∀ v ∈ a.forwardVisits depth entry, b.project.load v.path = a.project.load v.path)
    (hnext : ∀ v ∈ a.forwardVisits depth entry, b.next v.path = a.next v.path) :
    b.report entry .forward depth = a.report entry .forward depth := by
  have hvisits : b.forwardVisits depth entry = a.forwardVisits depth entry := search_congr hnext
  have hreached : b.reached (a.forwardVisits depth entry)
      = a.reached (a.forwardVisits depth entry) :=
    List.filter_congr fun v hv => by rw [Project.isLoadable, Project.isLoadable, hload v hv]
  have hfiles : (b.report entry .forward depth).files = (a.report entry .forward depth).files := by
    rw [files_forward, files_forward, hvisits, hreached]
    refine List.filterMap_congr fun p hp => ?_
    obtain ⟨v, hv, hpath⟩ : ∃ v ∈ a.forwardVisits depth entry, v.path = p.path := by
      rcases (Placement.mem_ofVisits (nodup_reached_forward a depth entry)
        (nodup_reached_nil a)).1 hp with ⟨v, hv, rfl, -⟩ | ⟨v, hv, -⟩
      · exact ⟨v, (mem_reached.1 hv).1, rfl⟩
      · exact absurd (mem_reached.1 hv).1 List.not_mem_nil
    rw [fileReport?, fileReport?, ← hpath, hload v hv]
  have hlost : (b.report entry .forward depth).unreachable
      = (a.report entry .forward depth).unreachable := by
    rw [unreachable_forward, unreachable_forward, hvisits]
    exact List.filterMap_congr fun v hv => by rw [hload v hv]
  have hbeyond : beyond (b.reached (b.forwardVisits depth entry))
      = beyond (a.reached (a.forwardVisits depth entry)) := by
    rw [hvisits, hreached]
  -- the rest of a forward report is made of these parts
  have hreport : ∀ graph : ImportGraph, graph.report entry .forward depth
      = { entry, mode := .forward, depth
          files := (graph.report entry .forward depth).files
          classes := mergedClasses (graph.report entry .forward depth).files
          relations := mergedRelations (graph.report entry .forward depth).files
          inheritance := mergedInheritance (graph.report entry .forward depth).files
          forwardFiles := beyond (graph.reached (graph.forwardVisits depth entry))
          backwardFiles := []
          unreachable := (graph.report entry .forward depth).unreachable } := fun _ => rfl
  refine (hreport b).trans ?_
  rw [hfiles, hlost, hbeyond]
  exact (hreport a).symm

end ImportGraph

/-! ## 3. Names after the addition -/

section Addition

variable {store : MemoryStore} {path text p name : String}

/-- What a file that was there declares is what it declared. -/
theorem declares_add_iff (hnew : store.contains path = false) (hp : store.contains p = true) :
    (store.add path text).view.Declares p name ↔ store.view.Declares p name := by
  have hread : (store.add path text).view.read p = store.view.read p :=
    MemoryStore.read_add_of_ne hnew (MemoryStore.ne_of_contains hnew hp)
  rw [FileView.Declares, FileView.Declares, hread]

/-- The new file declares what its text declares. -/
theorem declares_new_iff (hkeyed : store.IsKeyed) (hnew : store.contains path = false) :
    (store.add path text).view.Declares (Path.normalize path) name ↔
      name ∈ Index.declaredNames (Language.ofPath? (Path.normalize path)) text := by
  have hlawful : (store.add path text).view.Lawful := (hkeyed.add path text).lawful_view
  have hlanguage : Language.ofFile (Path.normalize path)
      = .ok (Language.ofPath? (Path.normalize path)) := hlawful.ofFile_canonical path
  have hread : (store.add path text).view.read (Path.normalize path) = .ok text := by
    rw [MemoryStore.view_read, MemoryStore.read, MemoryStore.text?_normalize,
      MemoryStore.text?_add_self hnew]
  exact FileView.declares_iff hlanguage hread

/-- **A name that the new file does not declare is declared where it was.** -/
theorem Lookup.declarers_add {a b : Lookup} (ha : a.IsFaithful store.view)
    (hb : b.IsFaithful (store.add path text).view) (hkeyed : store.IsKeyed)
    (hnew : store.contains path = false)
    (hscope : b.scope = a.scope ∨ b.scope = a.scope ++ [Path.normalize path])
    (hname : name ∉ Index.declaredNames (Language.ofPath? (Path.normalize path)) text) :
    b.declarers name = a.declarers name := by
  have hsub : ∀ p ∈ a.scope, p ∈ b.scope := by
    rcases hscope with hscope | hscope
    · exact fun p hp => hscope ▸ hp
    · exact fun p hp => hscope ▸ List.mem_append_left _ hp
  have hold : (a.scope.filter fun p => b.indexes.any fun index => (index.resolve name).contains p)
      = a.declarers name := by
    refine List.filter_congr fun p hp => ?_
    rw [Bool.eq_iff_iff, hb.any_resolve_iff (hsub p hp), ha.any_resolve_iff hp]
    exact declares_add_iff hnew (ha.contains p hp)
  rw [Lookup.declarers]
  rcases hscope with hsame | hlast
  · rw [hsame, hold]
  · have hmem : Path.normalize path ∈ b.scope := by
      rw [hlast]
      exact List.mem_append_right _ (List.mem_singleton_self _)
    have hnot : ¬ (b.indexes.any fun index =>
        (index.resolve name).contains (Path.normalize path)) = true := by
      rw [hb.any_resolve_iff hmem, declares_new_iff hkeyed hnew]
      exact hname
    have hnone : ([Path.normalize path].filter fun p =>
        b.indexes.any fun index => (index.resolve name).contains p) = [] :=
      List.filter_cons_of_neg hnot
    rw [hlast, List.filter_append, hold, hnone, List.append_nil]

/-- A specifier means what it meant, unless it is looked for under the new path. -/
theorem resolveImport_add {importer specifier : String} (hnew : store.contains path = false)
    (h : ∀ candidate ∈ Specifier.candidates (Language.ofPath? (Path.normalize importer))
      (Path.normalize importer) specifier, Path.normalize candidate ≠ Path.normalize path) :
    (store.add path text).view.resolveImport importer specifier
      = store.view.resolveImport importer specifier := by
  rw [FileView.resolveImport, FileView.resolveImport, Specifier.resolve?, Specifier.resolve?]
  exact List.find?_congr fun candidate hcandidate =>
    MemoryStore.contains_add_of_ne hnew (h candidate hcandidate)

end Addition

/-! ## 4. Unrelated files -/

/-- A reported file refers to a class name: as the target of a relationship, or as what one of its
classes extends or implements. -/
def FileReport.RefersTo (f : FileReport) (name : String) : Prop :=
  (∃ r ∈ f.relations, r.target = name) ∨
    ∃ c ∈ f.classes, (c.base = some name ∧ name ≠ "") ∨ name ∈ c.implements

/-- **A file has nothing to do with a report**: no import of a file of the report is looked for under
its path, in whatever spelling, and it declares no class name that a file of the report refers to. -/
structure Report.IsUnrelated (report : Report) (path text : String) : Prop where
  ne_candidate : ∀ f ∈ report.files, ∀ i ∈ f.imports,
    ∀ candidate ∈ ImportGraph.candidatesOf f.path i, Path.normalize candidate ≠ Path.normalize path
  not_declared : ∀ f ∈ report.files, ∀ name, f.RefersTo name →
    name ∉ Index.declaredNames (Language.ofPath? (Path.normalize path)) text

theorem ImportGraph.refersTo_of_mem {file : LoadedFile} {f : FileReport} {name : String}
    (hrelations : f.relations = file.report.relations) (hclasses : f.classes = file.outline.classes)
    (h : name ∈ referencedNames file) : f.RefersTo name := by
  rw [FileReport.RefersTo, hrelations, hclasses]
  rw [referencedNames, List.mem_eraseDups, List.mem_append, List.mem_map, List.mem_flatMap] at h
  refine h.imp_right ?_
  rintro ⟨c, hc, hname⟩
  rw [List.mem_append, List.mem_filter, Option.mem_toList] at hname
  refine ⟨c, hc, hname.imp_left fun ⟨hbase, hne⟩ => ⟨hbase, ?_⟩⟩
  rintro rfl
  cases hne

/-! ## 5. Runs -/

namespace Session

variable {store : MemoryStore} {grammar : Grammar} {session later : Session} {path text : String}

/-- The scope has the new file last, or does not have it. -/
theorem scope_add (hnew : store.contains path = false) :
    scope ⟨(store.add path text).view, grammar⟩ = scope ⟨store.view, grammar⟩ ∨
      scope ⟨(store.add path text).view, grammar⟩
        = scope ⟨store.view, grammar⟩ ++ [Path.normalize path] := by
  obtain ⟨found, hfound⟩ := Discovery.exists_run_memory store
  obtain ⟨found', hfound'⟩ := Discovery.exists_run_memory (store.add path text)
  rw [scope, scope]
  dsimp only
  rw [hfound, hfound']
  exact Discovery.files_run_add hnew hfound hfound'

/-- A reported file leads where it led. -/
theorem nextOf_add (hkeyed : store.IsKeyed)
    (hsession : ∀ index ∈ session.supplied, index.Filled store.view)
    (hlater : ∀ index ∈ later.supplied, index.Filled (store.add path text).view)
    (hnew : store.contains path = false) {report : Report} (h : report.IsUnrelated path text)
    {f : FileReport} (hf : f ∈ report.files) (hcanonical : Path.normalize f.path = f.path)
    {file : LoadedFile} (himports : f.imports = file.outline.imports)
    (hclasses : f.classes = file.outline.classes)
    (hrelations : f.relations = file.report.relations) :
    (later.graph ⟨(store.add path text).view, grammar⟩).nextOf f.path file
      = (session.graph ⟨store.view, grammar⟩).nextOf f.path file := by
  refine ImportGraph.nextOf_congr (fun i hi => ?_) fun name hname => ?_
  · refine ImportGraph.targetsOf_congr rfl fun specifier hspecifier => ?_
    refine resolveImport_add hnew fun candidate hcandidate => ?_
    rw [hcanonical] at hcandidate
    exact h.ne_candidate f hf i (himports ▸ hi) candidate
      (List.mem_flatMap.2 ⟨specifier, hspecifier, hcandidate⟩)
  · have hscope : (later.graph ⟨(store.add path text).view, grammar⟩).lookup.scope
          = (session.graph ⟨store.view, grammar⟩).lookup.scope ∨
        (later.graph ⟨(store.add path text).view, grammar⟩).lookup.scope
          = (session.graph ⟨store.view, grammar⟩).lookup.scope ++ [Path.normalize path] := by
      rw [scope_lookup_graph, scope_lookup_graph]
      exact scope_add hnew
    have hdeclarers := Lookup.declarers_add (isFaithful_lookup session hkeyed.lawful_view hsession)
      (isFaithful_lookup later (hkeyed.add path text).lawful_view hlater) hkeyed hnew hscope
      (h.not_declared f hf name (ImportGraph.refersTo_of_mem hrelations hclasses hname))
    rw [Lookup.choose?, Lookup.choose?, hdeclarers]

/-- The graph of the files in memory tells the same after the addition. -/
theorem report_add (hkeyed : store.IsKeyed)
    (hsession : ∀ index ∈ session.supplied, index.Filled store.view)
    (hlater : ∀ index ∈ later.supplied, index.Filled (store.add path text).view)
    (hnew : store.contains path = false) {entry : String} (hcontains : store.contains entry = true)
    (hcanonical : Path.normalize entry = entry) {depth : Nat}
    (h : ((session.graph ⟨store.view, grammar⟩).report entry .forward depth).IsUnrelated path
      text) :
    (later.graph ⟨(store.add path text).view, grammar⟩).report entry .forward depth
      = (session.graph ⟨store.view, grammar⟩).report entry .forward depth := by
  -- what the traversal visits was there before, under its canonical path
  have hvisited : ∀ v ∈ (session.graph ⟨store.view, grammar⟩).forwardVisits depth entry,
      store.contains v.path = true ∧ Path.normalize v.path = v.path := by
    have hstays : (session.graph ⟨store.view, grammar⟩).StaysIn
        fun p => store.contains p = true ∧ Path.normalize p = p :=
      staysIn_graph session hkeyed.lawful_view fun p hp =>
        ⟨(hkeyed.lawful_view.contains_canonical p).trans hp, Path.normalize_normalize p⟩
    exact fun v hv => hstays.of_mem_forwardVisits ⟨hcontains, hcanonical⟩ hv
  have hload : ∀ v ∈ (session.graph ⟨store.view, grammar⟩).forwardVisits depth entry,
      Project.load ⟨(store.add path text).view, grammar⟩ v.path
        = Project.load ⟨store.view, grammar⟩ v.path := by
    intro v hv
    have hread : (store.add path text).view.read v.path = store.view.read v.path :=
      MemoryStore.read_add_of_ne hnew (MemoryStore.ne_of_contains hnew (hvisited v hv).1)
    rw [Project.load, Project.load, hread]
  refine ImportGraph.report_forward_congr hload fun v hv => ?_
  cases hfile : Project.load ⟨store.view, grammar⟩ v.path with
  | error e =>
    rw [ImportGraph.next_of_error ((hload v hv).trans hfile), ImportGraph.next_of_error hfile]
  | ok file =>
    have hreached : (⟨v.path, v.hop⟩ : Visit) ∈ (session.graph ⟨store.view, grammar⟩).reached
        ((session.graph ⟨store.view, grammar⟩).forwardVisits depth entry) :=
      ImportGraph.mem_reached.2 ⟨hv, ImportGraph.isLoadable_iff.2 ⟨file, hfile⟩⟩
    obtain ⟨f, hf, hpath, -⟩ := ImportGraph.lists_forward_iff_mem_reached.2 hreached
    obtain ⟨file', hfile', himports, hclasses, hrelations, -⟩ :=
      ImportGraph.exists_load_of_mem_files hf
    obtain rfl : file' = file := Except.ok.inj (hfile'.symm.trans (hpath ▸ hfile))
    rw [ImportGraph.next_of_ok ((hload v hv).trans hfile), ImportGraph.next_of_ok hfile, ← hpath]
    exact nextOf_add hkeyed hsession hlater hnew h hf (hpath ▸ (hvisited v hv).2) himports hclasses
      hrelations

/-- **A file that has nothing to do with a report changes nothing.** If it comes under a new path to
the files in memory that a forward traversal has told of, a traversal from the same entry to the same
depth tells the same. -/
theorem outcome_analyze_add (hkeyed : store.IsKeyed)
    (hsession : ∀ index ∈ session.supplied, index.Filled store.view)
    (hlater : ∀ index ∈ later.supplied, index.Filled (store.add path text).view)
    {entry : String} {depth : Nat} {report : Report}
    (h : (session.analyze ⟨store.view, grammar⟩ (.of entry .forward depth)).outcome = .ok report)
    (hnew : store.contains path = false) (hunrelated : report.IsUnrelated path text) :
    (later.analyze ⟨(store.add path text).view, grammar⟩ (.of entry .forward depth)).outcome
      = .ok report := by
  obtain ⟨r, hcheck, rfl⟩ := exists_report_of_analyze h
  have hcontains : store.contains (Path.normalize entry) = true := by
    obtain ⟨hentry, hcontains⟩ := Request.entry_of_check hcheck
    rwa [hentry] at hcontains
  have hr : r = ⟨Path.normalize entry, .forward, depth⟩ :=
    Except.ok.inj (hcheck.symm.trans (Request.check_of hcontains .forward depth))
  subst hr
  have hlast : (store.add path text).contains (Path.normalize entry) = true := by
    rw [MemoryStore.contains_add_of_ne hnew (MemoryStore.ne_of_contains hnew hcontains)]
    exact hcontains
  obtain ⟨found, hfound⟩ := Discovery.exists_run_memory (store.add path text)
  rw [outcome_analyze_of_found hlast hfound]
  exact congrArg _ (report_add hkeyed hsession hlater hnew hcontains (Path.normalize_normalize entry)
    hunrelated)

/-- The files of `mutualImports`. -/
def mutualStore : MemoryStore :=
  MemoryStore.ofFiles "/" [("/a.ts", "./b"), ("/b.ts", "./a")]

theorem isUnrelated_mutualStore :
    ((graph {} ⟨mutualStore.view, singleImport⟩).report "/a.ts" .forward 2).IsUnrelated "/z.ts"
      "class Z" := by
  have hreached : (graph {} ⟨mutualStore.view, singleImport⟩).reached
      ((graph {} ⟨mutualStore.view, singleImport⟩).forwardVisits 2 "/a.ts")
        = [⟨"/a.ts", 0⟩, ⟨"/b.ts", 1⟩] := by
    decide +kernel
  have hparts : ∀ path ∈ ["/a.ts", "/b.ts"],
      (Project.load ⟨mutualStore.view, singleImport⟩ path).toOption.any (fun file =>
        (file.outline.imports.flatMap (ImportGraph.candidatesOf path)).all
            (Path.normalize · != Path.normalize "/z.ts") &&
          file.outline.classes.isEmpty && file.report.relations.isEmpty) = true := by
    decide +kernel
  have hfiles : ∀ f ∈ ((graph {} ⟨mutualStore.view, singleImport⟩).report "/a.ts" .forward 2).files,
      (f.imports.flatMap (ImportGraph.candidatesOf f.path)).all
          (Path.normalize · != Path.normalize "/z.ts") = true ∧
        f.classes = [] ∧ f.relations = [] := by
    intro f hf
    obtain ⟨file, hload, himports, hclasses, hrelations, -⟩ :=
      ImportGraph.exists_load_of_mem_files hf
    obtain ⟨⟨v, hv, hplacement⟩, -⟩ := ImportGraph.mem_files_forward.1 hf
    have hpath : f.path ∈ ["/a.ts", "/b.ts"] := by
      rw [hreached] at hv
      rw [(FileReport.eq_of_placement hplacement).1]
      exact List.mem_map_of_mem (f := Visit.path) hv
    have hpart := hparts f.path hpath
    rw [show Project.load ⟨mutualStore.view, singleImport⟩ f.path = .ok file from hload,
      Except.toOption, Option.any_some, Bool.and_eq_true, Bool.and_eq_true, ← himports,
      ← hclasses, ← hrelations] at hpart
    exact ⟨hpart.1.1, List.isEmpty_iff.1 hpart.1.2, List.isEmpty_iff.1 hpart.2⟩
  refine ⟨fun f hf i hi candidate hcandidate => ?_, fun f hf name hname => ?_⟩
  · have hne := List.all_eq_true.1 (hfiles f hf).1 candidate (List.mem_flatMap.2 ⟨i, hi, hcandidate⟩)
    exact bne_iff_ne.1 hne
  · rw [FileReport.RefersTo, (hfiles f hf).2.1, (hfiles f hf).2.2] at hname
    simp at hname

theorem outcome_analyze_add_mutualStore :
    mutualStore.IsKeyed ∧
      (Session.analyze {} ⟨mutualStore.view, singleImport⟩ (.of "/a.ts" .forward 2)).outcome
        = .ok ((graph {} ⟨mutualStore.view, singleImport⟩).report "/a.ts" .forward 2) ∧
      mutualStore.contains "/z.ts" = false ∧
      ((graph {} ⟨mutualStore.view, singleImport⟩).report "/a.ts" .forward 2).IsUnrelated "/z.ts"
        "class Z" ∧
      (Session.analyze {} ⟨(mutualStore.add "/z.ts" "class Z").view, singleImport⟩
          (.of "/a.ts" .forward 2)).outcome
        = .ok ((graph {} ⟨mutualStore.view, singleImport⟩).report "/a.ts" .forward 2) := by
  have hkeyed : mutualStore.IsKeyed := MemoryStore.isKeyed_ofFiles _ _
  have hnew : mutualStore.contains "/z.ts" = false := by decide +kernel
  have hcontains : mutualStore.contains (Path.normalize "/a.ts") = true := by decide +kernel
  have hcanonical : mutualStore.view.canonical "/a.ts" = "/a.ts" := by decide +kernel
  obtain ⟨found, hfound⟩ := Discovery.exists_run_memory mutualStore
  have houtcome :
      (Session.analyze {} ⟨mutualStore.view, singleImport⟩ (.of "/a.ts" .forward 2)).outcome
        = .ok ((graph {} ⟨mutualStore.view, singleImport⟩).report "/a.ts" .forward 2) := by
    rw [outcome_analyze_of_found hcontains hfound, hcanonical]
  have hnone : ∀ view, ∀ index ∈ (none : Option ImportIndex), index.Filled view := by
    rintro view index ⟨⟩
  exact ⟨hkeyed, houtcome, hnew, isUnrelated_mutualStore,
    outcome_analyze_add hkeyed (hnone _) (hnone _) houtcome hnew isUnrelated_mutualStore⟩

end Session

end Traversal

end CodeAtlas
