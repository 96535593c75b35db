import CodeAtlas.Proofs.Dedup
import CodeAtlas.Proofs.Traversal.Placement
import CodeAtlas.Proofs.Traversal.Search
import CodeAtlas.Traversal.Report

/-!
# What a report lists

A report lists the files that its searches have placed, each as `FileReport.placement` tells, so
every statement on its files is one on `Placement.ofVisits`. The files that could not be loaded are
kept apart, under the hop of the first visit to them.
-/

namespace CodeAtlas.Traversal

/-! ## 1. Files of a report -/

/-- Where a report puts a file. -/
def FileReport.placement (f : FileReport) : Placement :=
  { path := f.path, hop := f.hop, direction := f.direction }

/-- A file that a visit has placed has its path and its hop. -/
theorem FileReport.eq_of_placement {f : FileReport} {direction : Direction} {v : Visit}
    (h : f.placement = Placement.ofVisit direction v) :
    f.path = v.path ∧ f.hop = v.hop ∧
      f.direction = if f.hop = 0 then Direction.entry else direction := by
  have hhop : f.hop = v.hop := congrArg Placement.hop h
  have hdirection : f.direction = (Placement.ofVisit direction v).direction :=
    congrArg Placement.direction h
  refine ⟨congrArg Placement.path h, hhop, ?_⟩
  rw [hdirection, hhop, Placement.ofVisit]
  simp only [beq_iff_eq]

namespace Report

/-- **A report lists a file** at a number of hops. -/
def Lists (report : Report) (path : String) (hop : Nat) : Prop :=
  ∃ f ∈ report.files, f.path = path ∧ f.hop = hop

/-- **A report misses a file**, which it reached in a number of hops and could not load. -/
def Misses (report : Report) (path : String) (hop : Nat) : Prop :=
  ∃ u ∈ report.unreachable, u.path = path ∧ u.hop = hop

/-- The largest number of hops is that of a file, and zero without files. -/
theorem foldl_max_spec (hops : List Nat) (least : Nat) :
    (least ≤ hops.foldl max least ∧ ∀ hop ∈ hops, hop ≤ hops.foldl max least) ∧
      (hops.foldl max least = least ∨ hops.foldl max least ∈ hops) := by
  induction hops generalizing least with
  | nil => exact ⟨⟨Nat.le_refl _, fun hop h => absurd h List.not_mem_nil⟩, Or.inl rfl⟩
  | cons hop hops ih =>
    rw [List.foldl_cons]
    obtain ⟨⟨hle, hall⟩, hmem⟩ := ih (max least hop)
    refine ⟨⟨by omega, fun n hn => ?_⟩, ?_⟩
    · rcases List.mem_cons.1 hn with rfl | hn
      · omega
      · exact hall n hn
    · rcases hmem with hmem | hmem
      · rcases Nat.le_total hop least with h | h
        · exact Or.inl (by rw [hmem]; omega)
        · exact Or.inr (by rw [hmem, Nat.max_eq_right h]; exact List.mem_cons_self)
      · exact Or.inr (List.mem_cons_of_mem hop hmem)

theorem le_maxHop {report : Report} {path : String} {hop : Nat} (h : report.Lists path hop) :
    hop ≤ report.maxHop := by
  obtain ⟨f, hf, -, rfl⟩ := h
  exact (foldl_max_spec _ 0).1.2 f.hop (List.mem_map_of_mem hf)

theorem lists_maxHop {report : Report} (h : report.files ≠ []) :
    ∃ path, report.Lists path report.maxHop := by
  rcases (foldl_max_spec (report.files.map (·.hop)) 0).2 with hzero | hmem
  · obtain ⟨f, hf⟩ := List.exists_mem_of_ne_nil _ h
    refine ⟨f.path, f, hf, rfl, ?_⟩
    have := (foldl_max_spec (report.files.map (·.hop)) 0).1.2 f.hop (List.mem_map_of_mem hf)
    rw [maxHop]
    omega
  · obtain ⟨f, hf, hhop⟩ := List.mem_map.1 hmem
    exact ⟨f.path, f, hf, rfl, hhop⟩

theorem maxHop_of_files_eq_nil {report : Report} (h : report.files = []) : report.maxHop = 0 := by
  rw [maxHop, h]
  rfl

end Report

namespace ImportGraph

variable {graph : ImportGraph}

/-! ## 2. Files that can be loaded -/

/-- **What is reported of a placed file** is what loading it gives. -/
theorem exists_load_of_fileReport? {p : Placement} {f : FileReport}
    (h : graph.fileReport? p = some f) :
    ∃ file, graph.project.load p.path = .ok file ∧ f =
      { path := p.path, language := file.outline.language, classes := file.outline.classes
        imports := file.outline.imports, exports := file.outline.exports
        relations := file.report.relations, inheritance := file.report.inheritance
        hop := p.hop, direction := p.direction } := by
  unfold fileReport? at h
  split at h
  · rename_i file hload
    exact ⟨file, hload, (Option.some.inj h).symm⟩
  · cases h

/-- A file is reported where it is placed. -/
theorem placement_of_fileReport? {p : Placement} {f : FileReport}
    (h : graph.fileReport? p = some f) : f.placement = p := by
  obtain ⟨file, -, rfl⟩ := exists_load_of_fileReport? h
  rfl

theorem exists_fileReport? {p : Placement} (h : graph.project.isLoadable p.path = true) :
    ∃ f, graph.fileReport? p = some f := by
  obtain ⟨file, hload⟩ := isLoadable_iff.1 h
  unfold fileReport?
  rw [hload]
  exact ⟨_, rfl⟩

theorem mem_fileReports {placed : List Placement} {f : FileReport} :
    f ∈ placed.filterMap graph.fileReport? ↔
      f.placement ∈ placed ∧ graph.fileReport? f.placement = some f := by
  rw [List.mem_filterMap]
  constructor
  · rintro ⟨p, hp, hf⟩
    have hfp := placement_of_fileReport? hf
    exact ⟨hfp ▸ hp, hfp ▸ hf⟩
  · exact fun h => ⟨f.placement, h.1, h.2⟩

/-- **The files of a report are the placed files**, each where it is placed. -/
theorem map_placement_fileReports {placed : List Placement}
    (h : ∀ p ∈ placed, graph.project.isLoadable p.path = true) :
    (placed.filterMap graph.fileReport?).map FileReport.placement = placed := by
  induction placed with
  | nil => rfl
  | cons p placed ih =>
    obtain ⟨f, hf⟩ := exists_fileReport? (h p List.mem_cons_self)
    rw [List.filterMap_cons_some hf, List.map_cons, placement_of_fileReport? hf,
      ih fun q hq => h q (List.mem_cons_of_mem p hq)]

/-! ## 3. Files that cannot be loaded -/

theorem mem_unreachableFiles {found : List Visit} {u : UnreachableFile} :
    u ∈ graph.unreachableFiles found ↔
      (⟨u.path, u.hop⟩ : Visit) ∈ found ∧
        ∃ e, graph.project.load u.path = .error e ∧ u.reason = e.message := by
  unfold unreachableFiles
  rw [List.mem_filterMap]
  constructor
  · rintro ⟨v, hv, hu⟩
    split at hu
    · cases hu
    · rename_i e hload
      cases hu
      exact ⟨hv, e, hload, rfl⟩
  · rintro ⟨hv, e, hload, hreason⟩
    refine ⟨_, hv, ?_⟩
    rw [hload]
    dsimp only
    rw [← hreason]

theorem map_path_unreachableFiles_sublist (graph : ImportGraph) (found : List Visit) :
    ((graph.unreachableFiles found).map (·.path)).Sublist (found.map (·.path)) := by
  induction found with
  | nil => exact List.Sublist.refl _
  | cons v found ih =>
    unfold unreachableFiles at ih ⊢
    rw [List.filterMap_cons]
    split
    · exact ih.cons _
    · rename_i u hu
      split at hu
      · cases hu
      · cases hu
        exact ih.cons_cons _

theorem nodup_unreachableFiles {found : List Visit} (h : (found.map (·.path)).Nodup) :
    ((graph.unreachableFiles found).map (·.path)).Nodup :=
  (map_path_unreachableFiles_sublist graph found).nodup h

/-! ## 4. Reports of a search -/

variable {entry : String} {depth : Nat}

theorem nodup_reached_forward (graph : ImportGraph) (depth : Nat) (entry : String) :
    ((graph.reached (graph.forwardVisits depth entry)).map (·.path)).Nodup :=
  nodup_reached (nodup_search graph.next depth entry)

theorem nodup_reached_backward (graph : ImportGraph) (depth : Nat) (entry : String) :
    ((graph.reached (graph.backwardVisits depth entry)).map (·.path)).Nodup :=
  nodup_reached (nodup_search graph.backStep depth entry)

theorem nodup_reached_nil (graph : ImportGraph) :
    ((graph.reached []).map (·.path)).Nodup :=
  List.nodup_nil

/-- What a search reached can be loaded, and so can what the placements of two searches hold. -/
theorem isLoadable_of_mem_ofVisits {found back : List Visit} {p : Placement}
    (hfound : ((graph.reached found).map (·.path)).Nodup)
    (hback : ((graph.reached back).map (·.path)).Nodup)
    (h : p ∈ Placement.ofVisits (graph.reached found) (graph.reached back)) :
    graph.project.isLoadable p.path = true := by
  rcases (Placement.mem_ofVisits hfound hback).1 h with ⟨v, hv, rfl, -⟩ | ⟨v, hv, rfl, -⟩
  · exact (mem_reached.1 hv).2
  · exact (mem_reached.1 hv).2

/-- The visits of the forward search of a traversal, none if it does not go forward. -/
def forwardReached (graph : ImportGraph) (entry : String) (mode : Mode) (depth : Nat) :
    List Visit :=
  graph.reached (if mode.goesForward then graph.forwardVisits depth entry else [])

/-- The visits of the backward search of a traversal, none if it does not go backward. -/
def backwardReached (graph : ImportGraph) (entry : String) (mode : Mode) (depth : Nat) :
    List Visit :=
  graph.reached (if mode.goesBackward then graph.backwardVisits depth entry else [])

section Direction

-- a search in one direction, in which the traversal goes or does not
variable {step : String → List String} {goes : Bool} {v : Visit}

theorem nodup_reached_search (graph : ImportGraph) (step : String → List String) (goes : Bool)
    (depth : Nat) (entry : String) :
    ((graph.reached (if goes then search step depth entry else [])).map (·.path)).Nodup := by
  split
  · exact nodup_reached (nodup_search step depth entry)
  · exact nodup_reached_nil graph

theorem mem_search_of_mem_reached
    (h : v ∈ graph.reached (if goes then search step depth entry else [])) :
    goes = true ∧ v ∈ search step depth entry := by
  have hvisit := (mem_reached.1 h).1
  split at hvisit
  · rename_i hgoes
    exact ⟨hgoes, hvisit⟩
  · exact absurd hvisit List.not_mem_nil

/-- A search to a smaller depth reaches what the deeper one reaches within that depth. -/
theorem reached_search_eq_filter {larger : Nat} (h : depth ≤ larger) :
    graph.reached (if goes then search step depth entry else [])
      = (graph.reached (if goes then search step larger entry else [])).filter (·.hop ≤ depth) := by
  rw [reached, reached, List.filter_comm]
  split
  · rw [search_eq_filter _ _ h]
  · rfl

end Direction

theorem nodup_forwardReached (graph : ImportGraph) (entry : String) (mode : Mode) (depth : Nat) :
    ((graph.forwardReached entry mode depth).map (·.path)).Nodup :=
  nodup_reached_search graph graph.next mode.goesForward depth entry

theorem nodup_backwardReached (graph : ImportGraph) (entry : String) (mode : Mode) (depth : Nat) :
    ((graph.backwardReached entry mode depth).map (·.path)).Nodup :=
  nodup_reached_search graph graph.backStep mode.goesBackward depth entry

theorem mem_visits_of_mem_forwardReached {mode : Mode} {v : Visit}
    (h : v ∈ graph.forwardReached entry mode depth) :
    mode.goesForward = true ∧ v ∈ graph.forwardVisits depth entry :=
  mem_search_of_mem_reached h

theorem mem_visits_of_mem_backwardReached {mode : Mode} {v : Visit}
    (h : v ∈ graph.backwardReached entry mode depth) :
    mode.goesBackward = true ∧ v ∈ graph.backwardVisits depth entry :=
  mem_search_of_mem_reached h

theorem files_report (graph : ImportGraph) (entry : String) (mode : Mode) (depth : Nat) :
    (graph.report entry mode depth).files
      = (Placement.ofVisits (graph.forwardReached entry mode depth)
          (graph.backwardReached entry mode depth)).filterMap graph.fileReport? := rfl

/-- **Every report lists its files where they are placed**, in the order of the placements. -/
theorem map_placement_files (graph : ImportGraph) (entry : String) (mode : Mode) (depth : Nat) :
    (graph.report entry mode depth).files.map FileReport.placement
      = Placement.ofVisits (graph.forwardReached entry mode depth)
          (graph.backwardReached entry mode depth) := by
  rw [files_report]
  refine map_placement_fileReports fun p hp => isLoadable_of_mem_ofVisits ?_ ?_ hp
  · exact nodup_forwardReached graph entry mode depth
  · exact nodup_backwardReached graph entry mode depth

/-- No report lists a file twice. -/
theorem nodup_paths (graph : ImportGraph) (entry : String) (mode : Mode) (depth : Nat) :
    (graph.report entry mode depth).paths.Nodup := by
  have hpaths : (graph.report entry mode depth).paths
      = ((graph.report entry mode depth).files.map FileReport.placement).map (·.path) := by
    rw [List.map_map]
    rfl
  rw [hpaths, map_placement_files]
  exact Placement.nodup_ofVisits (nodup_forwardReached graph entry mode depth)

/-- **Every file of a report has been visited**, in one direction or the other. -/
theorem exists_visit_of_mem_files {mode : Mode} {f : FileReport}
    (h : f ∈ (graph.report entry mode depth).files) :
    (∃ v ∈ graph.forwardReached entry mode depth, v.path = f.path) ∨
      ∃ v ∈ graph.backwardReached entry mode depth, v.path = f.path := by
  have hplaced : f.placement ∈ (graph.report entry mode depth).files.map FileReport.placement :=
    List.mem_map_of_mem h
  rw [map_placement_files, Placement.mem_ofVisits (nodup_forwardReached graph entry mode depth)
    (nodup_backwardReached graph entry mode depth)] at hplaced
  rcases hplaced with ⟨v, hv, hplacement, -⟩ | ⟨v, hv, hplacement, -⟩
  · exact Or.inl ⟨v, hv, (FileReport.eq_of_placement hplacement).1.symm⟩
  · exact Or.inr ⟨v, hv, (FileReport.eq_of_placement hplacement).1.symm⟩

theorem eq_of_mem_files {mode : Mode} {f g : FileReport}
    (hf : f ∈ (graph.report entry mode depth).files)
    (hg : g ∈ (graph.report entry mode depth).files) (h : f.path = g.path) : f = g :=
  List.inj_on_of_nodup_map (nodup_paths graph entry mode depth) hf hg h

/-- Along the files of a report the hops never go down. -/
theorem pairwise_hops (graph : ImportGraph) (entry : String) (mode : Mode) (depth : Nat) :
    (graph.report entry mode depth).files.Pairwise (·.hop ≤ ·.hop) := by
  have hplaced : ((graph.report entry mode depth).files.map FileReport.placement).Pairwise
      (·.hop ≤ ·.hop) := by
    rw [map_placement_files]
    exact Placement.pairwise_ofVisits _ _
  rw [List.pairwise_map] at hplaced
  exact hplaced

theorem files_forward (graph : ImportGraph) (entry : String) (depth : Nat) :
    (graph.report entry .forward depth).files
      = (Placement.ofVisits (graph.reached (graph.forwardVisits depth entry))
          (graph.reached [])).filterMap graph.fileReport? := rfl

theorem files_backward (graph : ImportGraph) (entry : String) (depth : Nat) :
    (graph.report entry .backward depth).files
      = (Placement.ofVisits (graph.reached [])
          (graph.reached (graph.backwardVisits depth entry))).filterMap graph.fileReport? := rfl

theorem files_bidirectional (graph : ImportGraph) (entry : String) (depth : Nat) :
    (graph.report entry .bidirectional depth).files
      = (Placement.ofVisits (graph.reached (graph.forwardVisits depth entry))
          (graph.reached (graph.backwardVisits depth entry))).filterMap graph.fileReport? := rfl

/-- A file of the forward report is a visit of the forward search to a file that can be loaded. -/
theorem mem_files_forward {f : FileReport} :
    f ∈ (graph.report entry .forward depth).files ↔
      (∃ v ∈ graph.reached (graph.forwardVisits depth entry),
        f.placement = Placement.ofVisit .forward v) ∧
      graph.fileReport? f.placement = some f := by
  rw [files_forward, mem_fileReports,
    Placement.mem_ofVisits (nodup_reached_forward graph depth entry)
      (nodup_reached_nil graph)]
  simp [reached]

/-- A file of the backward report is a visit of the backward search to a file that can be
loaded. -/
theorem mem_files_backward {f : FileReport} :
    f ∈ (graph.report entry .backward depth).files ↔
      (∃ v ∈ graph.reached (graph.backwardVisits depth entry),
        f.placement = Placement.ofVisit .backward v) ∧
      graph.fileReport? f.placement = some f := by
  rw [files_backward, mem_fileReports,
    Placement.mem_ofVisits (nodup_reached_nil graph)
      (nodup_reached_backward graph depth entry)]
  simp [reached]

/-- **A report of one direction lists its visits** to files that can be loaded. -/
theorem lists_iff_mem_reached {found : List Visit} {direction : Direction} {report : Report}
    (h : ∀ f, f ∈ report.files ↔
      (∃ v ∈ graph.reached found, f.placement = Placement.ofVisit direction v) ∧
      graph.fileReport? f.placement = some f) {path : String} {hop : Nat} :
    report.Lists path hop ↔ (⟨path, hop⟩ : Visit) ∈ graph.reached found := by
  constructor
  · rintro ⟨f, hf, rfl, rfl⟩
    obtain ⟨⟨v, hv, hfv⟩, -⟩ := (h f).1 hf
    obtain ⟨hpath, hhop, -⟩ := FileReport.eq_of_placement hfv
    rw [hpath, hhop]
    exact hv
  · intro hv
    obtain ⟨f, hf⟩ := exists_fileReport? (p := Placement.ofVisit direction ⟨path, hop⟩)
      (mem_reached.1 hv).2
    have hfp := placement_of_fileReport? hf
    exact ⟨f, (h f).2 ⟨⟨_, hv, hfp⟩, hfp ▸ hf⟩, congrArg Placement.path hfp,
      congrArg Placement.hop hfp⟩

variable {path : String} {hop : Nat}

theorem lists_forward_iff_mem_reached :
    (graph.report entry .forward depth).Lists path hop ↔
      (⟨path, hop⟩ : Visit) ∈ graph.reached (graph.forwardVisits depth entry) :=
  lists_iff_mem_reached fun _ => mem_files_forward

theorem lists_backward_iff_mem_reached :
    (graph.report entry .backward depth).Lists path hop ↔
      (⟨path, hop⟩ : Visit) ∈ graph.reached (graph.backwardVisits depth entry) :=
  lists_iff_mem_reached fun _ => mem_files_backward

theorem lists_forward :
    (graph.report entry .forward depth).Lists path hop ↔
      graph.project.isLoadable path = true ∧ hop ≤ depth ∧ IsDistance graph.next entry path hop := by
  rw [lists_forward_iff_mem_reached, mem_reached, and_comm]
  exact and_congr_right fun _ => mem_search

theorem lists_backward :
    (graph.report entry .backward depth).Lists path hop ↔
      graph.project.isLoadable path = true ∧ hop ≤ depth ∧
        IsDistance graph.backStep entry path hop := by
  rw [lists_backward_iff_mem_reached, mem_reached, and_comm]
  exact and_congr_right fun _ => mem_search

/-! ## 5. What a forward report misses -/

theorem unreachable_forward (graph : ImportGraph) (entry : String) (depth : Nat) :
    (graph.report entry .forward depth).unreachable
      = graph.unreachableFiles (graph.forwardVisits depth entry) := by
  have hfound : (graph.report entry .forward depth).unreachable
      = firstByKey (·.path) (graph.unreachableFiles (graph.forwardVisits depth entry ++ [])) := rfl
  rw [hfound, List.append_nil]
  exact firstByKey_eq_self (nodup_unreachableFiles (nodup_search _ _ _))

theorem misses_forward :
    (graph.report entry .forward depth).Misses path hop ↔
      hop ≤ depth ∧ ¬ graph.project.isLoadable path = true ∧
        IsDistance graph.next entry path hop := by
  rw [Report.Misses, unreachable_forward]
  constructor
  · rintro ⟨u, hu, rfl, rfl⟩
    obtain ⟨hvisit, e, hload, -⟩ := mem_unreachableFiles.1 hu
    obtain ⟨hle, hdist⟩ := mem_search.1 hvisit
    exact ⟨hle, not_isLoadable_iff.2 ⟨e, hload⟩, hdist⟩
  · rintro ⟨hle, hlost, hdist⟩
    obtain ⟨e, hload⟩ := not_isLoadable_iff.1 hlost
    have hvisit : (⟨path, hop⟩ : Visit) ∈ graph.forwardVisits depth entry :=
      mem_search.2 ⟨hle, hdist⟩
    exact ⟨⟨path, e.message, hop⟩, mem_unreachableFiles.2 ⟨hvisit, e, hload, rfl⟩, rfl, rfl⟩

end ImportGraph

end CodeAtlas.Traversal
