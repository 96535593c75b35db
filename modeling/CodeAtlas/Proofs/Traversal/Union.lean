import CodeAtlas.Proofs.Outline.Place
import CodeAtlas.Proofs.Traversal.Merge
import CodeAtlas.Proofs.Traversal.Report
import CodeAtlas.Proofs.Traversal.Run
import Mathlib.Data.Nat.Find

/-!
# Both directions together

The report of a traversal in both directions is the union of the reports of one direction each
(`Report.IsUnion`). The two searches do not disturb each other, so what has to be shown is how a
file that both have found is placed: the nearer report counts, and the forward one if both are as
near. What a file declares does not depend on the search that found it, so the merged classes,
relationships and inheritance are unions too.
-/

namespace CodeAtlas.Traversal

/-! ## 1. Unions of reports -/

/-- **The union of two reports**: every file of either, from the report that is nearer to it, and
from the forward one if both are as near. -/
structure Report.IsUnion (forward backward both : Report) : Prop where
  mem_files_iff : ∀ f, f ∈ both.files ↔
    (f ∈ forward.files ∧ ∀ g ∈ backward.files, g.path = f.path → f.hop ≤ g.hop) ∨
    (f ∈ backward.files ∧ ∀ g ∈ forward.files, g.path = f.path → f.hop < g.hop)
  nodup_files : (both.files.map (·.path)).Nodup
  lists_iff : ∀ path hop, both.Lists path hop ↔
    IsLeast {n | forward.Lists path n ∨ backward.Lists path n} hop
  direction_entry : ∀ f ∈ both.files, f.hop = 0 → f.direction = .entry
  direction_forward : ∀ f ∈ both.files, f.hop ≠ 0 →
    (∃ n, forward.Lists f.path n ∧ ∀ m, backward.Lists f.path m → n ≤ m) → f.direction = .forward
  direction_backward : ∀ f ∈ both.files, f.hop ≠ 0 →
    ¬ (∃ n, forward.Lists f.path n ∧ ∀ m, backward.Lists f.path m → n ≤ m) →
    f.direction = .backward
  forwardFiles_eq : both.forwardFiles = forward.forwardFiles
  backwardFiles_eq : both.backwardFiles = backward.backwardFiles
  unreachable_eq : both.unreachable = forward.unreachable
  mem_classes_iff : ∀ key, key ∈ both.classes.map ClassDecl.key ↔
    key ∈ forward.classes.map ClassDecl.key ∨ key ∈ backward.classes.map ClassDecl.key
  mem_relations_iff : ∀ key, key ∈ both.relations.map Relation.key ↔
    key ∈ forward.relations.map Relation.key ∨ key ∈ backward.relations.map Relation.key
  mem_inheritance_iff : ∀ pair, pair ∈ both.inheritance.pairs ↔
    pair ∈ forward.inheritance.pairs ∨ pair ∈ backward.inheritance.pairs

namespace ImportGraph

variable {graph : ImportGraph} {entry : String} {depth : Nat}

/-! ## 2. What a file declares -/

/-- A file is reported alike wherever it is placed. -/
theorem fileReport?_congr {p q : Placement} {f g : FileReport} (hf : graph.fileReport? p = some f)
    (hg : graph.fileReport? q = some g) (hpath : q.path = p.path) :
    f = { g with hop := p.hop, direction := p.direction } := by
  obtain ⟨file, hfile, rfl⟩ := exists_load_of_fileReport? hf
  obtain ⟨other, hother, rfl⟩ := exists_load_of_fileReport? hg
  rw [hpath] at hother
  cases hfile.symm.trans hother
  rw [hpath]

/-- The classes of a reported file have its path. -/
theorem path_of_mem_classes_fileReport? {f : FileReport} {c : ClassDecl}
    (hf : graph.fileReport? f.placement = some f) (hc : c ∈ f.classes) : c.path = f.path := by
  obtain ⟨file, hfile, hreport⟩ := exists_load_of_fileReport? hf
  obtain ⟨text, outline, -, houtline, rfl⟩ := exists_of_load hfile
  have hclasses : f.classes = outline.classes := congrArg FileReport.classes hreport
  rw [hclasses] at hc
  exact Outline.path_of_mem_classes houtline hc

/-! ## 3. Files of both directions -/

theorem fileReport?_of_mem_files {mode : Mode} {f : FileReport}
    (h : f ∈ (graph.report entry mode depth).files) : graph.fileReport? f.placement = some f :=
  (mem_fileReports.1 h).2

/-- **The hops at which a report lists a file** are those of the visits to it, if the report lists what
a search has reached. -/
theorem forall_hop_iff {report : Report} {found : List Visit}
    (hlists : ∀ path hop, report.Lists path hop ↔ (⟨path, hop⟩ : Visit) ∈ found) {path : String}
    (P : Nat → Prop) :
    (∀ g ∈ report.files, g.path = path → P g.hop) ↔ ∀ v ∈ found, v.path = path → P v.hop := by
  constructor
  · rintro h v hv rfl
    obtain ⟨g, hg, hpath, hhop⟩ := (hlists v.path v.hop).2 hv
    rw [← hhop]
    exact h g hg hpath
  · rintro h g hg rfl
    exact h ⟨g.path, g.hop⟩ ((hlists g.path g.hop).1 ⟨g, hg, rfl, rfl⟩) rfl

theorem forall_backward_iff {path : String} {hop : Nat} :
    (∀ g ∈ (graph.report entry .backward depth).files, g.path = path → hop ≤ g.hop) ↔
      ∀ w ∈ graph.reached (graph.backwardVisits depth entry), w.path = path → hop ≤ w.hop :=
  forall_hop_iff (fun _ _ => lists_backward_iff_mem_reached) (hop ≤ ·)

theorem forall_forward_iff {path : String} {hop : Nat} :
    (∀ g ∈ (graph.report entry .forward depth).files, g.path = path → hop < g.hop) ↔
      ∀ v ∈ graph.reached (graph.forwardVisits depth entry), v.path = path → hop < v.hop :=
  forall_hop_iff (fun _ _ => lists_forward_iff_mem_reached) (hop < ·)

/-- **Both directions list a file from the report that is nearer to it.** -/
theorem mem_files_bidirectional {f : FileReport} :
    f ∈ (graph.report entry .bidirectional depth).files ↔
      (f ∈ (graph.report entry .forward depth).files ∧
        ∀ g ∈ (graph.report entry .backward depth).files, g.path = f.path → f.hop ≤ g.hop) ∨
      (f ∈ (graph.report entry .backward depth).files ∧
        ∀ g ∈ (graph.report entry .forward depth).files, g.path = f.path → f.hop < g.hop) := by
  rw [forall_backward_iff, forall_forward_iff, files_bidirectional, mem_fileReports,
    Placement.mem_ofVisits (nodup_reached_forward graph depth entry)
      (nodup_reached_backward graph depth entry), mem_files_forward, mem_files_backward]
  constructor
  · rintro ⟨⟨v, hv, hfv, hle⟩ | ⟨w, hw, hfw, hlt⟩, hf⟩
    · obtain ⟨hpath, hhop, -⟩ := FileReport.eq_of_placement hfv
      rw [hpath, hhop]
      exact Or.inl ⟨⟨⟨v, hv, hfv⟩, hf⟩, hle⟩
    · obtain ⟨hpath, hhop, -⟩ := FileReport.eq_of_placement hfw
      rw [hpath, hhop]
      exact Or.inr ⟨⟨⟨w, hw, hfw⟩, hf⟩, hlt⟩
  · rintro (⟨⟨⟨v, hv, hfv⟩, hf⟩, hle⟩ | ⟨⟨⟨w, hw, hfw⟩, hf⟩, hlt⟩)
    · obtain ⟨hpath, hhop, -⟩ := FileReport.eq_of_placement hfv
      rw [hpath, hhop] at hle
      exact ⟨Or.inl ⟨v, hv, hfv, hle⟩, hf⟩
    · obtain ⟨hpath, hhop, -⟩ := FileReport.eq_of_placement hfw
      rw [hpath, hhop] at hlt
      exact ⟨Or.inr ⟨w, hw, hfw, hlt⟩, hf⟩

/-- **The hops are the smaller ones.** -/
theorem lists_bidirectional {path : String} {hop : Nat} :
    (graph.report entry .bidirectional depth).Lists path hop ↔
      IsLeast {n | (graph.report entry .forward depth).Lists path n ∨
        (graph.report entry .backward depth).Lists path n} hop := by
  constructor
  · rintro ⟨f, hf, rfl, rfl⟩
    rcases mem_files_bidirectional.1 hf with ⟨hf, hle⟩ | ⟨hf, hlt⟩
    · refine ⟨Or.inl ⟨f, hf, rfl, rfl⟩, ?_⟩
      rintro n (⟨g, hg, hpath, rfl⟩ | ⟨g, hg, hpath, rfl⟩)
      · rw [eq_of_mem_files hg hf hpath]
      · exact hle g hg hpath
    · refine ⟨Or.inr ⟨f, hf, rfl, rfl⟩, ?_⟩
      rintro n (⟨g, hg, hpath, rfl⟩ | ⟨g, hg, hpath, rfl⟩)
      · exact Nat.le_of_lt (hlt g hg hpath)
      · rw [eq_of_mem_files hg hf hpath]
  · rintro ⟨⟨f, hf, rfl, rfl⟩ | ⟨f, hf, rfl, rfl⟩, hleast⟩
    · have hle : ∀ g ∈ (graph.report entry .backward depth).files,
          g.path = f.path → f.hop ≤ g.hop :=
        fun g hg hpath => hleast (Or.inr ⟨g, hg, hpath, rfl⟩)
      exact ⟨f, mem_files_bidirectional.2 (Or.inl ⟨hf, hle⟩), rfl, rfl⟩
    · by_cases hlt : ∀ g ∈ (graph.report entry .forward depth).files,
          g.path = f.path → f.hop < g.hop
      · exact ⟨f, mem_files_bidirectional.2 (Or.inr ⟨hf, hlt⟩), rfl, rfl⟩
      -- a forward listing that is as near takes the place
      · push Not at hlt
        obtain ⟨g, hg, hpath, hge⟩ := hlt
        have hhop : g.hop = f.hop := Nat.le_antisymm hge (hleast (Or.inl ⟨g, hg, hpath, rfl⟩))
        refine ⟨g, mem_files_bidirectional.2 (Or.inl ⟨hg, fun k hk hkg => ?_⟩), hpath, hhop⟩
        rw [eq_of_mem_files hk hf (hkg.trans hpath)]
        exact hge

/-- What one direction lists, both directions list. -/
theorem exists_lists_bidirectional {path : String} {hop : Nat}
    (h : (graph.report entry .forward depth).Lists path hop ∨
      (graph.report entry .backward depth).Lists path hop) :
    ∃ n, (graph.report entry .bidirectional depth).Lists path n := by
  classical
  have hex : ∃ n, (graph.report entry .forward depth).Lists path n ∨
      (graph.report entry .backward depth).Lists path n := ⟨hop, h⟩
  exact ⟨Nat.find hex, lists_bidirectional.2 ⟨Nat.find_spec hex, fun n hn => Nat.find_min' hex hn⟩⟩

/-- What files declare, whatever their places, the files of both directions declare exactly if
those of one direction do. -/
theorem exists_mem_files_bidirectional {P : FileReport → Prop}
    (hP : ∀ f hop direction, P f → P { f with hop, direction }) :
    (∃ f ∈ (graph.report entry .bidirectional depth).files, P f) ↔
      (∃ f ∈ (graph.report entry .forward depth).files, P f) ∨
      ∃ f ∈ (graph.report entry .backward depth).files, P f := by
  constructor
  · rintro ⟨f, hf, h⟩
    rcases mem_files_bidirectional.1 hf with ⟨hf, -⟩ | ⟨hf, -⟩
    · exact Or.inl ⟨f, hf, h⟩
    · exact Or.inr ⟨f, hf, h⟩
  · -- a file declares the same in the report of both directions as in that of one
    have hsame : ∀ f n, graph.fileReport? f.placement = some f →
        (graph.report entry .bidirectional depth).Lists f.path n → P f →
        ∃ g ∈ (graph.report entry .bidirectional depth).files, P g := by
      rintro f n hf ⟨g, hg, hpath, -⟩ h
      refine ⟨g, hg, ?_⟩
      rw [fileReport?_congr (fileReport?_of_mem_files hg) hf hpath.symm]
      exact hP f _ _ h
    rintro (⟨f, hf, h⟩ | ⟨f, hf, h⟩)
    · obtain ⟨n, hn⟩ := exists_lists_bidirectional (Or.inl ⟨f, hf, rfl, rfl⟩)
      exact hsame f n (fileReport?_of_mem_files hf) hn h
    · obtain ⟨n, hn⟩ := exists_lists_bidirectional (Or.inr ⟨f, hf, rfl, rfl⟩)
      exact hsame f n (fileReport?_of_mem_files hf) hn h

/-! ## 4. Directions and missed files -/

theorem direction_of_mem_files_forward {f : FileReport}
    (h : f ∈ (graph.report entry .forward depth).files) :
    f.direction = if f.hop = 0 then .entry else .forward := by
  obtain ⟨⟨v, -, hv⟩, -⟩ := mem_files_forward.1 h
  exact (FileReport.eq_of_placement hv).2.2

theorem direction_of_mem_files_backward {f : FileReport}
    (h : f ∈ (graph.report entry .backward depth).files) :
    f.direction = if f.hop = 0 then .entry else .backward := by
  obtain ⟨⟨v, -, hv⟩, -⟩ := mem_files_backward.1 h
  exact (FileReport.eq_of_placement hv).2.2

/-- The backward search misses nothing that the forward search does not miss. -/
theorem unreachable_bidirectional :
    (graph.report entry .bidirectional depth).unreachable
      = (graph.report entry .forward depth).unreachable := by
  have hboth : (graph.report entry .bidirectional depth).unreachable
      = firstByKey (·.path) (graph.unreachableFiles
          (graph.forwardVisits depth entry ++ graph.backwardVisits depth entry)) := rfl
  have happend : graph.unreachableFiles
      (graph.forwardVisits depth entry ++ graph.backwardVisits depth entry)
      = graph.unreachableFiles (graph.forwardVisits depth entry) ++
        graph.unreachableFiles (graph.backwardVisits depth entry) :=
    List.filterMap_append
  rw [hboth, happend, firstByKey_append_of_subset, unreachable_forward]
  · exact firstByKey_eq_self (nodup_unreachableFiles (nodup_search _ _ _))
  · intro u hu
    obtain ⟨hvisit, e, hload, -⟩ := mem_unreachableFiles.1 hu
    -- backward only the entry can be missed, and the forward search has met it
    have hentry : (⟨u.path, u.hop⟩ : Visit) = ⟨entry, 0⟩ :=
      (isLoadable_of_mem_backwardVisits hvisit).resolve_right (not_isLoadable_iff.2 ⟨e, hload⟩)
    have hpath : u.path = entry := congrArg Visit.path hentry
    have hfirst : (⟨entry, 0⟩ : Visit) ∈ graph.forwardVisits depth entry :=
      mem_search.2 ⟨Nat.zero_le depth, IsDistance.self entry⟩
    rw [hpath] at hload
    exact List.mem_map.2
      ⟨⟨entry, e.message, 0⟩, mem_unreachableFiles.2 ⟨hfirst, e, hload, rfl⟩, hpath.symm⟩

/-! ## 5. The report of both directions -/

theorem isUnion_bidirectional (graph : ImportGraph) (entry : String) (depth : Nat) :
    (graph.report entry .forward depth).IsUnion (graph.report entry .backward depth)
      (graph.report entry .bidirectional depth) where
  mem_files_iff _ := mem_files_bidirectional
  nodup_files := nodup_paths graph entry .bidirectional depth
  lists_iff _ _ := lists_bidirectional
  direction_entry f hf hzero := by
    rcases mem_files_bidirectional.1 hf with ⟨hf, -⟩ | ⟨hf, -⟩
    · rw [direction_of_mem_files_forward hf, if_pos hzero]
    · rw [direction_of_mem_files_backward hf, if_pos hzero]
  direction_forward f hf hzero := by
    rintro ⟨n, ⟨g, hg, hpath, rfl⟩, hle⟩
    rcases mem_files_bidirectional.1 hf with ⟨hf, -⟩ | ⟨hf, hlt⟩
    · rw [direction_of_mem_files_forward hf, if_neg hzero]
    · have := hlt g hg hpath
      have := hle f.hop ⟨f, hf, rfl, rfl⟩
      omega
  direction_backward f hf hzero hnone := by
    rcases mem_files_bidirectional.1 hf with ⟨hf, hle⟩ | ⟨hf, -⟩
    · refine absurd ⟨f.hop, ⟨f, hf, rfl, rfl⟩, ?_⟩ hnone
      rintro m ⟨g, hg, hpath, rfl⟩
      exact hle g hg hpath
    · rw [direction_of_mem_files_backward hf, if_neg hzero]
  forwardFiles_eq := rfl
  backwardFiles_eq := rfl
  unreachable_eq := unreachable_bidirectional
  mem_classes_iff key := by
    have hpath : ∀ mode, ∀ f ∈ (graph.report entry mode depth).files, ∀ c ∈ f.classes,
        c.path = f.path := fun mode f hf c hc =>
      path_of_mem_classes_fileReport? (fileReport?_of_mem_files hf) hc
    have hmerged : ∀ mode, (graph.report entry mode depth).classes
        = mergedClasses (graph.report entry mode depth).files := fun mode => rfl
    rw [hmerged, hmerged, hmerged, mem_keys_mergedClasses (hpath _),
      mem_keys_mergedClasses (hpath _), mem_keys_mergedClasses (hpath _)]
    exact exists_mem_files_bidirectional fun _ _ _ h => h
  mem_relations_iff key := by
    have hmerged : ∀ mode, (graph.report entry mode depth).relations
        = mergedRelations (graph.report entry mode depth).files := fun mode => rfl
    rw [hmerged, hmerged, hmerged, mem_keys_mergedRelations, mem_keys_mergedRelations,
      mem_keys_mergedRelations]
    exact exists_mem_files_bidirectional fun _ _ _ h => h
  mem_inheritance_iff pair := by
    have hmerged : ∀ mode, (graph.report entry mode depth).inheritance
        = mergedInheritance (graph.report entry mode depth).files := fun mode => rfl
    rw [hmerged, hmerged, hmerged, mem_pairs_mergedInheritance, mem_pairs_mergedInheritance,
      mem_pairs_mergedInheritance]
    exact exists_mem_files_bidirectional fun _ _ _ h => h

end ImportGraph

/-! ## 6. Runs -/

/-- A traversal in both directions asks for what one in each asks for. -/
theorem ImportGraph.mem_trace_bidirectional {graph : ImportGraph} {entry : String} {depth : Nat}
    {event : Event} :
    event ∈ graph.trace entry .bidirectional depth ↔
      event ∈ graph.trace entry .forward depth ∨ event ∈ graph.trace entry .backward depth := by
  have hboth : graph.trace entry .bidirectional depth
      = graph.forwardTrace depth entry ++ graph.backwardTrace depth entry := rfl
  have hforward : graph.trace entry .forward depth = graph.forwardTrace depth entry ++ [] := rfl
  have hbackward : graph.trace entry .backward depth = [] ++ graph.backwardTrace depth entry := rfl
  rw [hboth, hforward, hbackward, List.append_nil, List.nil_append, List.mem_append]

namespace Session

/-- **A traversal in both directions is the union of one in each.** -/
theorem answers_bidirectional (session : Session) (project : Project) {entry : String}
    (h : project.view.contains (project.view.canonical entry) = true) (depth : Nat) :
    session.Answers project (.of entry .bidirectional depth) fun both =>
      ∃ forward backward,
        (session.analyze project (.of entry .forward depth)).outcome = .ok forward ∧
        (session.analyze project (.of entry .backward depth)).outcome = .ok backward ∧
        forward.IsUnion backward both := by
  have hunion := ImportGraph.isUnion_bidirectional (session.graph project)
    (project.view.canonical entry) depth
  have hforward := outcome_analyze_of session h .forward depth
  have hbackward := outcome_analyze_of session h .backward depth
  rw [Answers, outcome_analyze_of session h .bidirectional depth]
  cases hfound : Discovery.run project.view {} with
  | ok found =>
    rw [hfound] at hforward hbackward
    exact ⟨_, _, hforward, hbackward, hunion⟩
  | error e =>
    rw [hfound] at hforward hbackward
    dsimp only at hforward hbackward ⊢
    by_cases hscope : Event.scope ∈
        (session.graph project).trace (project.view.canonical entry) .bidirectional depth
    · rw [if_pos hscope]
      exact Discovery.exists_list_error hfound
    · rw [if_neg hscope]
      rw [ImportGraph.mem_trace_bidirectional, not_or] at hscope
      rw [if_neg hscope.1] at hforward
      rw [if_neg hscope.2] at hbackward
      exact ⟨_, _, hforward, hbackward, hunion⟩

theorem answers_bidirectional_mutualImports :
    mutualImports.view.contains (mutualImports.view.canonical "/x/../b.ts") = true ∧
      Session.Answers {} mutualImports (.of "/x/../b.ts" .bidirectional 3) fun both =>
        ∃ forward backward,
          (Session.analyze {} mutualImports (.of "/x/../b.ts" .forward 3)).outcome = .ok forward ∧
          (Session.analyze {} mutualImports (.of "/x/../b.ts" .backward 3)).outcome
            = .ok backward ∧
          forward.IsUnion backward both :=
  ⟨by decide +kernel, answers_bidirectional {} mutualImports (by decide +kernel) 3⟩

end Session

end CodeAtlas.Traversal
