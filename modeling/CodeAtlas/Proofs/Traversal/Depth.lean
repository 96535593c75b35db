import CodeAtlas.Proofs.Sorted
import CodeAtlas.Proofs.Traversal.Union

/-!
# A deeper traversal

The visits of a search down to a depth are those of any deeper search, without the ones beyond the
depth. So a deeper traversal keeps the files of the shallower one at their hops, and what it adds
comes after them. In one direction the files also keep their order: the report goes on where the
shallower one ends. In both directions they need not. A file that has been reached backward only is
moved to the front of its hop when the forward search reaches it at last, because a file keeps the
place of its first visit and the forward search is the first to run. `Report.IsLateFor` names this
case; where it does not occur, the order is kept in both directions too.
-/

namespace CodeAtlas.Traversal

namespace Placement

/-! ## 1. Placements down to a depth -/

variable {p q : Placement} {placed more rest : List Placement} {depth : Nat}

/-- The placements down to a depth. -/
def upTo (depth : Nat) (placed : List Placement) : List Placement :=
  placed.filter (·.hop ≤ depth)

theorem mem_upTo : q ∈ upTo depth placed ↔ q ∈ placed ∧ q.hop ≤ depth := by
  rw [upTo, List.mem_filter, decide_eq_true_iff]

theorem upTo_cons_of_le (h : q.hop ≤ depth) : upTo depth (q :: rest) = q :: upTo depth rest :=
  List.filter_cons_of_pos (decide_eq_true h)

theorem upTo_cons_of_lt (h : depth < q.hop) : upTo depth (q :: rest) = upTo depth rest :=
  List.filter_cons_of_neg (by simpa using h)

/-- A placement beyond the depth makes no difference. -/
theorem upTo_insert_of_lt (hp : depth < p.hop) :
    upTo depth (insert p placed) = upTo depth placed := by
  induction placed with
  | nil => exact upTo_cons_of_lt hp
  | cons q rest ih =>
    by_cases hpath : q.path = p.path
    -- if it takes the place of another, that one lies beyond the depth too
    · rw [insert_cons_of_eq hpath]
      split
      · rename_i hnear
        rw [upTo_cons_of_lt hp, upTo_cons_of_lt (Nat.lt_trans hp hnear)]
      · rfl
    · rw [insert_cons_of_ne hpath]
      rcases Nat.lt_or_ge depth q.hop with hq | hq
      · rw [upTo_cons_of_lt hq, upTo_cons_of_lt hq, ih]
      · rw [upTo_cons_of_le hq, upTo_cons_of_le hq, ih]

/-- One within the depth is inserted there, unless it finds its file beyond the depth. -/
theorem upTo_insert_of_le (hp : p.hop ≤ depth)
    (hlate : ∀ q ∈ placed, q.path = p.path → q.hop ≤ depth) :
    upTo depth (insert p placed) = insert p (upTo depth placed) := by
  induction placed with
  | nil => exact upTo_cons_of_le hp
  | cons q rest ih =>
    by_cases hpath : q.path = p.path
    -- both are within the depth, and so is the nearer of them
    · have hq := hlate q List.mem_cons_self hpath
      have hnearer : (if p.hop < q.hop then p else q).hop ≤ depth := by
        split
        · exact hp
        · exact hq
      rw [insert_cons_of_eq hpath, upTo_cons_of_le hnearer, upTo_cons_of_le hq,
        insert_cons_of_eq hpath]
    · have ih := ih fun r hr => hlate r (List.mem_cons_of_mem q hr)
      rw [insert_cons_of_ne hpath]
      -- `q` is seen or not on both sides, and the insertion goes on behind it
      rcases Nat.lt_or_ge depth q.hop with hq | hq
      · rw [upTo_cons_of_lt hq, upTo_cons_of_lt hq, ih]
      · rw [upTo_cons_of_le hq, upTo_cons_of_le hq, insert_cons_of_ne hpath, ih]

theorem mem_of_mem_insert (h : q ∈ insert p placed) : q = p ∨ q ∈ placed := by
  induction placed with
  | nil => exact Or.inl (List.mem_singleton.1 h)
  | cons r rest ih =>
    by_cases hpath : r.path = p.path
    · rw [insert_cons_of_eq hpath] at h
      rcases List.mem_cons.1 h with rfl | h
      · split
        · exact Or.inl rfl
        · exact Or.inr List.mem_cons_self
      · exact Or.inr (List.mem_cons_of_mem r h)
    · rw [insert_cons_of_ne hpath] at h
      rcases List.mem_cons.1 h with rfl | h
      · exact Or.inr List.mem_cons_self
      · exact (ih h).imp_right (List.mem_cons_of_mem r)

/-- **A run of insertions, seen down to a depth**, is one of the placements down to that depth, if
none of these finds its file beyond the depth. -/
theorem upTo_insertAll (hmore : (more.map (·.path)).Nodup)
    (hlate : ∀ p ∈ more, p.hop ≤ depth → ∀ q ∈ placed, q.path = p.path → q.hop ≤ depth) :
    upTo depth (insertAll placed more) = insertAll (upTo depth placed) (upTo depth more) := by
  induction more generalizing placed with
  | nil => rfl
  | cons p more ih =>
    rw [List.map_cons, List.nodup_cons] at hmore
    have hrest : ∀ s ∈ more, s.hop ≤ depth → ∀ q ∈ insert p placed, q.path = s.path →
        q.hop ≤ depth := by
      intro s hs hhop q hq hpath
      rcases mem_of_mem_insert hq with rfl | hq
      -- the placement just inserted is for another file than those that come after it
      · exact absurd (List.mem_map.2 ⟨s, hs, hpath.symm⟩) hmore.1
      · exact hlate s (List.mem_cons_of_mem p hs) hhop q hq hpath
    have hstep : insertAll placed (p :: more) = insertAll (insert p placed) more := rfl
    rw [hstep, ih hmore.2 hrest]
    rcases Nat.lt_or_ge depth p.hop with hp | hp
    · rw [upTo_insert_of_lt hp, upTo_cons_of_lt hp]
    · rw [upTo_insert_of_le hp (hlate p List.mem_cons_self hp), upTo_cons_of_le hp]
      rfl

theorem upTo_map_ofVisit (direction : Direction) (found : List Visit) :
    upTo depth (found.map (ofVisit direction))
      = (found.filter (·.hop ≤ depth)).map (ofVisit direction) := by
  rw [upTo, List.filter_map]
  rfl

/-- **The placements of two searches down to a depth** are those of the visits down to it, unless a
file that the backward search visits within the depth is one that the forward search visits beyond
it. -/
theorem upTo_ofVisits {forward backward : List Visit} (hforward : (forward.map (·.path)).Nodup)
    (hbackward : (backward.map (·.path)).Nodup)
    (hlate : ∀ w ∈ backward, w.hop ≤ depth → ∀ v ∈ forward, v.path = w.path → v.hop ≤ depth) :
    upTo depth (ofVisits forward backward)
      = ofVisits (forward.filter (·.hop ≤ depth)) (backward.filter (·.hop ≤ depth)) := by
  have hnear : ((forward.filter (·.hop ≤ depth)).map (·.path)).Nodup :=
    (List.filter_sublist.map _).nodup hforward
  rw [ofVisits_eq hforward, ofVisits_eq hnear, upTo,
    Sorted.filter_mergeSort hop_le_trans hop_le_total]
  -- both sides are sorted, so it is enough to compare what they sort
  refine congrArg (List.mergeSort · _) ?_
  have hinsert : upTo depth (insertAll (forward.map (ofVisit .forward))
        (backward.map (ofVisit .backward)))
      = insertAll (upTo depth (forward.map (ofVisit .forward)))
          (upTo depth (backward.map (ofVisit .backward))) := by
    apply upTo_insertAll (by rwa [map_path_ofVisit])
    intro p hp hhop q hq hpath
    obtain ⟨w, hw, rfl⟩ := List.mem_map.1 hp
    obtain ⟨v, hv, rfl⟩ := List.mem_map.1 hq
    exact hlate w hw hhop v hv hpath
  rwa [upTo_map_ofVisit, upTo_map_ofVisit] at hinsert

/-- Placements that are in order as they have been inserted stay so. -/
theorem ofVisits_of_pairwise {forward backward : List Visit}
    (hforward : (forward.map (·.path)).Nodup)
    (h : (insertAll (forward.map (ofVisit .forward)) (backward.map (ofVisit .backward))).Pairwise
      fun p q => decide (p.hop ≤ q.hop) = true) :
    ofVisits forward backward
      = insertAll (forward.map (ofVisit .forward)) (backward.map (ofVisit .backward)) := by
  rw [ofVisits_eq hforward, List.mergeSort_of_pairwise h]

/-- Whatever the visits are, the placements down to a depth are those of the visits down to it, if
not in the same order. -/
theorem upTo_ofVisits_perm {forward backward : List Visit}
    (hforward : (forward.map (·.path)).Nodup) (hbackward : (backward.map (·.path)).Nodup) :
    (upTo depth (ofVisits forward backward)).Perm
      (ofVisits (forward.filter (·.hop ≤ depth)) (backward.filter (·.hop ≤ depth))) := by
  have hnear : ∀ found : List Visit, (found.map (·.path)).Nodup →
      ((found.filter (·.hop ≤ depth)).map (·.path)).Nodup := by
    intro found h
    exact (List.filter_sublist.map _).nodup h
  -- neither side places a file twice, so it is enough to compare their members
  have hnodup : (upTo depth (ofVisits forward backward)).Nodup :=
    (nodup_ofVisits hforward).of_map.filter _
  rw [List.perm_ext_iff_of_nodup hnodup (nodup_ofVisits (hnear _ hforward)).of_map]
  intro q
  simp only [mem_upTo, mem_ofVisits hforward hbackward,
    mem_ofVisits (hnear _ hforward) (hnear _ hbackward), List.mem_filter, decide_eq_true_iff]
  constructor
  · rintro ⟨⟨v, hv, rfl, hle⟩ | ⟨w, hw, rfl, hlt⟩, hhop⟩
    · exact Or.inl ⟨v, ⟨hv, hhop⟩, rfl, fun w hw => hle w hw.1⟩
    · exact Or.inr ⟨w, ⟨hw, hhop⟩, rfl, fun v hv => hlt v hv.1⟩
  -- a visit beyond the depth is not nearer than one within it
  · rintro (⟨v, ⟨hv, hhop⟩, rfl, hle⟩ | ⟨w, ⟨hw, hhop⟩, rfl, hlt⟩)
    · refine ⟨Or.inl ⟨v, hv, rfl, fun w hw hpath => ?_⟩, hhop⟩
      rcases Nat.lt_or_ge depth w.hop with hfar | hnear
      · exact Nat.le_of_lt (Nat.lt_of_le_of_lt hhop hfar)
      · exact hle w ⟨hw, hnear⟩ hpath
    · refine ⟨Or.inr ⟨w, hw, rfl, fun v hv hpath => ?_⟩, hhop⟩
      rcases Nat.lt_or_ge depth v.hop with hfar | hnear
      · exact Nat.lt_of_le_of_lt hhop hfar
      · exact hlt v ⟨hv, hnear⟩ hpath

end Placement

/-! ## 2. Reports of two depths -/

/-- **A report goes on in a deeper one**: what it lists, the deeper one lists first. -/
structure Report.IsContinuedBy (shallow deep : Report) : Prop where
  files : shallow.files <+: deep.files
  classes : shallow.classes <+: deep.classes
  relations : shallow.relations <+: deep.relations

/-- **A report is kept in a deeper one** if what it lists comes first there, in whatever order. -/
structure Report.IsKeptBy (shallow deep : Report) : Prop where
  files : ∃ nearest, nearest <+: deep.files ∧ nearest.Perm shallow.files
  classes : ∃ nearest, nearest <+: deep.classes ∧
    (nearest.map ClassDecl.key).Perm (shallow.classes.map ClassDecl.key)
  relations : ∃ nearest, nearest <+: deep.relations ∧
    (nearest.map Relation.key).Perm (shallow.relations.map Relation.key)

/-- A deeper report is late with a file that it has reached forward, if so far the file has been
reached backward only. -/
def Report.IsLateFor (deep shallow : Report) : Prop :=
  ∃ path ∈ deep.forwardFiles, path ∈ shallow.backwardFiles ∧ path ∉ shallow.forwardFiles

namespace ImportGraph

variable {graph : ImportGraph} {entry path : String} {mode : Mode} {depth larger : Nat}

theorem forwardReached_eq_filter (h : depth ≤ larger) :
    graph.forwardReached entry mode depth
      = (graph.forwardReached entry mode larger).filter (·.hop ≤ depth) :=
  reached_search_eq_filter h

theorem backwardReached_eq_filter (h : depth ≤ larger) :
    graph.backwardReached entry mode depth
      = (graph.backwardReached entry mode larger).filter (·.hop ≤ depth) :=
  reached_search_eq_filter h

/-- A file is reported at the hop at which it is placed, so leaving out what is beyond a depth can
be done before or after. -/
theorem filterMap_upTo (placed : List Placement) (depth : Nat) :
    (Placement.upTo depth placed).filterMap graph.fileReport?
      = (placed.filterMap graph.fileReport?).filter (·.hop ≤ depth) := by
  rw [Placement.upTo, List.filterMap_filter, List.filter_filterMap]
  apply List.filterMap_congr
  intro p _
  cases hf : graph.fileReport? p with
  | none => simp
  | some f =>
    have hhop : f.hop = p.hop := congrArg Placement.hop (placement_of_fileReport? hf)
    rw [Option.filter_some, hhop]

theorem mem_forwardFiles :
    path ∈ (graph.report entry mode depth).forwardFiles ↔
      ∃ v ∈ graph.forwardReached entry mode depth, 0 < v.hop ∧ v.path = path := by
  have hfiles : (graph.report entry mode depth).forwardFiles
      = ((graph.forwardReached entry mode depth).filter (0 < ·.hop)).map (·.path) := rfl
  simp only [hfiles, List.mem_map, List.mem_filter, decide_eq_true_iff, and_assoc]

theorem mem_backwardFiles :
    path ∈ (graph.report entry mode depth).backwardFiles ↔
      ∃ v ∈ graph.backwardReached entry mode depth, 0 < v.hop ∧ v.path = path := by
  have hfiles : (graph.report entry mode depth).backwardFiles
      = ((graph.backwardReached entry mode depth).filter (0 < ·.hop)).map (·.path) := rfl
  simp only [hfiles, List.mem_map, List.mem_filter, decide_eq_true_iff, and_assoc]

theorem isDistance_of_mem_forwardReached {v : Visit}
    (h : v ∈ graph.forwardReached entry mode depth) : IsDistance graph.next entry v.path v.hop :=
  (mem_search.1 (mem_visits_of_mem_forwardReached h).2).2

theorem isDistance_of_mem_backwardReached {v : Visit}
    (h : v ∈ graph.backwardReached entry mode depth) :
    IsDistance graph.backStep entry v.path v.hop :=
  (mem_search.1 (mem_visits_of_mem_backwardReached h).2).2

/-- A traversal in one direction is never late. -/
theorem not_isLateFor_of_ne (h : mode ≠ .bidirectional) :
    ¬ (graph.report entry mode larger).IsLateFor (graph.report entry mode depth) := by
  rintro ⟨path, hdeep, hshallow, -⟩
  cases mode with
  | forward => exact absurd hshallow List.not_mem_nil
  | backward => exact absurd hdeep List.not_mem_nil
  | bidirectional => exact h rfl

/-- Where the deeper report is not late, no file that the backward search visits within the depth is
first visited beyond it by the forward search. -/
theorem hop_le_of_not_isLateFor (hle : depth ≤ larger)
    (h : ¬ (graph.report entry mode larger).IsLateFor (graph.report entry mode depth)) {v w : Visit}
    (hw : w ∈ graph.backwardReached entry mode larger) (hwhop : w.hop ≤ depth)
    (hv : v ∈ graph.forwardReached entry mode larger) (hpath : v.path = w.path) :
    v.hop ≤ depth := by
  by_contra hfar
  have hforward := isDistance_of_mem_forwardReached hv
  -- the entry is at hop zero in both directions, so this is another file
  have hbeyond : 0 < w.hop := by
    by_contra hzero
    have hback := (isDistance_of_mem_backwardReached hw).walk
    rw [Nat.le_zero.1 (Nat.le_of_not_lt hzero)] at hback
    rw [hpath, ← hback.eq_of_zero] at hforward
    have := hforward.unique (IsDistance.self entry)
    omega
  refine h ⟨v.path, mem_forwardFiles.2 ⟨v, hv, by omega, rfl⟩,
    mem_backwardFiles.2 ⟨w, ?_, hbeyond, hpath.symm⟩, ?_⟩
  · rw [backwardReached_eq_filter hle]
    exact List.mem_filter.2 ⟨hw, decide_eq_true hwhop⟩
  -- a forward visit within the depth would be at the same distance, which lies beyond it
  · rw [mem_forwardFiles, forwardReached_eq_filter hle]
    rintro ⟨u, hu, -, hupath⟩
    obtain ⟨hu, huhop⟩ := List.mem_filter.1 hu
    have hdist := isDistance_of_mem_forwardReached hu
    rw [hupath] at hdist
    have := hdist.unique hforward
    have := of_decide_eq_true huhop
    omega

/-- **The files of a report that goes on** are those of the deeper report down to its depth. -/
theorem files_eq_filter (hle : depth ≤ larger)
    (h : ¬ (graph.report entry mode larger).IsLateFor (graph.report entry mode depth)) :
    (graph.report entry mode depth).files
      = (graph.report entry mode larger).files.filter (·.hop ≤ depth) := by
  rw [files_report, files_report, forwardReached_eq_filter hle, backwardReached_eq_filter hle,
    ← Placement.upTo_ofVisits (nodup_forwardReached graph entry mode larger)
      (nodup_backwardReached graph entry mode larger) fun w hw hwhop v hv hpath =>
        hop_le_of_not_isLateFor hle h hw hwhop hv hpath, filterMap_upTo]

/-- In any case they are the same files, each at its hop and in its direction. -/
theorem files_perm (hle : depth ≤ larger) :
    ((graph.report entry mode larger).files.filter (·.hop ≤ depth)).Perm
      (graph.report entry mode depth).files := by
  rw [files_report, files_report, forwardReached_eq_filter hle, backwardReached_eq_filter hle,
    ← filterMap_upTo]
  exact (Placement.upTo_ofVisits_perm (nodup_forwardReached graph entry mode larger)
    (nodup_backwardReached graph entry mode larger)).filterMap _

/-- The files of a report down to a depth stand in front. -/
theorem prefix_filter_files (graph : ImportGraph) (entry : String) (mode : Mode)
    (depth larger : Nat) :
    (graph.report entry mode larger).files.filter (·.hop ≤ depth)
      <+: (graph.report entry mode larger).files :=
  Sorted.prefix_filter_le (pairwise_hops graph entry mode larger) depth

/-- **A report goes on in a deeper one that is not late.** -/
theorem isContinuedBy_report (hle : depth ≤ larger)
    (h : ¬ (graph.report entry mode larger).IsLateFor (graph.report entry mode depth)) :
    (graph.report entry mode depth).IsContinuedBy (graph.report entry mode larger) := by
  have hfiles : (graph.report entry mode depth).files
      <+: (graph.report entry mode larger).files := by
    rw [files_eq_filter hle h]
    exact prefix_filter_files graph entry mode depth larger
  exact ⟨hfiles, prefix_mergedClasses hfiles, prefix_mergedRelations hfiles⟩

/-- **Every report is kept in a deeper one.** -/
theorem isKeptBy_report (hle : depth ≤ larger) :
    (graph.report entry mode depth).IsKeptBy (graph.report entry mode larger) where
  files := ⟨_, prefix_filter_files graph entry mode depth larger, files_perm hle⟩
  classes := by
    refine ⟨_, prefix_mergedClasses (prefix_filter_files graph entry mode depth larger),
      perm_keys_mergedClasses (files_perm hle) fun f hf c hc => ?_⟩
    exact path_of_mem_classes_fileReport? (fileReport?_of_mem_files hf) hc
  relations := ⟨_, prefix_mergedRelations (prefix_filter_files graph entry mode depth larger),
    perm_keys_mergedRelations (files_perm hle)⟩

/-! ## 3. What is asked for -/

theorem forwardTrace_subset (hle : depth ≤ larger) :
    graph.forwardTrace depth entry ⊆ graph.forwardTrace larger entry := by
  intro event h
  obtain ⟨v, hv, hevent⟩ := List.mem_flatMap.1 h
  rw [forwardVisits, search_eq_filter _ _ hle] at hv
  refine List.mem_flatMap.2 ⟨v, List.mem_of_mem_filter hv, ?_⟩
  rcases List.mem_cons.1 hevent with rfl | hstep
  · exact List.mem_cons_self
  · refine List.mem_cons_of_mem _ ?_
    split at hstep
    · rename_i hhop
      rwa [if_pos (Nat.lt_of_lt_of_le hhop hle)]
    · exact absurd hstep List.not_mem_nil

theorem backwardTrace_subset (hle : depth ≤ larger) :
    graph.backwardTrace depth entry ⊆ graph.backwardTrace larger entry := by
  intro event h
  unfold backwardTrace at h ⊢
  rw [List.mem_append, List.mem_cons] at h ⊢
  rcases h with (rfl | hedges) | hvisits
  · exact Or.inl (Or.inl rfl)
  · refine Or.inl (Or.inr ?_)
    split at hedges
    · rename_i hsteps
      rw [Bool.and_eq_true, decide_eq_true_iff] at hsteps
      have hlarger : (decide (0 < larger) && graph.project.isLoadable entry) = true := by
        rw [Bool.and_eq_true, decide_eq_true_iff]
        exact ⟨Nat.lt_of_lt_of_le hsteps.1 hle, hsteps.2⟩
      rwa [if_pos hlarger]
    · exact absurd hedges List.not_mem_nil
  · rw [backwardVisits_eq, search_eq_filter _ _ hle] at hvisits
    exact Or.inr (List.map_subset _ (List.filter_subset_self _) hvisits)

/-- **A deeper traversal asks for everything that the shallower one asks for.** -/
theorem trace_subset (hle : depth ≤ larger) :
    graph.trace entry mode depth ⊆ graph.trace entry mode larger := by
  intro event h
  unfold trace at h ⊢
  rw [List.mem_append] at h ⊢
  refine h.imp (fun h => ?_) fun h => ?_
  · split at h
    · rename_i hforward
      rw [if_pos hforward]
      exact forwardTrace_subset hle h
    · exact absurd h List.not_mem_nil
  · split at h
    · rename_i hbackward
      rw [if_pos hbackward]
      exact backwardTrace_subset hle h
    · exact absurd h List.not_mem_nil

end ImportGraph

/-! ## 4. Runs -/

namespace Session

/-- Where a deeper traversal answers with its report, so does the shallower one. -/
theorem answers_both_depths (session : Session) (project : Project) {entry : String}
    (h : project.view.contains (project.view.canonical entry) = true) (mode : Mode)
    {depth larger : Nat} (hle : depth ≤ larger) :
    session.Answers project (.of entry mode larger) fun deep =>
      deep = (session.graph project).report (project.view.canonical entry) mode larger ∧
      (session.analyze project (.of entry mode depth)).outcome
        = .ok ((session.graph project).report (project.view.canonical entry) mode depth) := by
  have hshallow := outcome_analyze_of session h mode depth
  rw [Answers, outcome_analyze_of session h mode larger]
  cases hfound : Discovery.run project.view {} with
  | ok found =>
    rw [hfound] at hshallow
    exact ⟨rfl, hshallow⟩
  | error e =>
    rw [hfound] at hshallow
    dsimp only at hshallow ⊢
    by_cases hscope : Event.scope ∈
        (session.graph project).trace (project.view.canonical entry) mode larger
    · rw [if_pos hscope]
      exact Discovery.exists_list_error hfound
    -- what the deeper traversal has not asked for, the shallower one has not either
    · rw [if_neg fun hmem => hscope (ImportGraph.trace_subset hle hmem)] at hshallow
      rw [if_neg hscope]
      exact ⟨rfl, hshallow⟩

/-- **Raising the depth.** A deeper traversal keeps what the shallower one lists, and it only
appends to that unless it is late with a file, which never happens in one direction. -/
theorem answers_deeper (session : Session) (project : Project) {entry : String}
    (h : project.view.contains (project.view.canonical entry) = true) (mode : Mode)
    {depth larger : Nat} (hle : depth ≤ larger) :
    session.Answers project (.of entry mode larger) fun deep =>
      ∃ shallow, (session.analyze project (.of entry mode depth)).outcome = .ok shallow ∧
        shallow.IsKeptBy deep ∧
        (¬ deep.IsLateFor shallow → shallow.IsContinuedBy deep) ∧
        (mode ≠ .bidirectional → shallow.IsContinuedBy deep) := by
  refine (answers_both_depths session project h mode hle).imp fun deep ⟨hdeep, hshallow⟩ => ?_
  rw [hdeep]
  exact ⟨_, hshallow, ImportGraph.isKeptBy_report hle, ImportGraph.isContinuedBy_report hle,
    fun hmode => ImportGraph.isContinuedBy_report hle (ImportGraph.not_isLateFor_of_ne hmode)⟩

theorem answers_deeper_mutualImports :
    mutualImports.view.contains (mutualImports.view.canonical "/b.ts") = true ∧ 0 ≤ 4 ∧
      Session.Answers {} mutualImports (.of "/b.ts" .bidirectional 4) fun deep =>
        ∃ shallow,
          (Session.analyze {} mutualImports (.of "/b.ts" .bidirectional 0)).outcome = .ok shallow ∧
          shallow.IsKeptBy deep ∧
          (¬ deep.IsLateFor shallow → shallow.IsContinuedBy deep) ∧
          (Mode.bidirectional ≠ .bidirectional → shallow.IsContinuedBy deep) := by
  have hcontains : mutualImports.view.contains (mutualImports.view.canonical "/b.ts") = true := by
    decide +kernel
  have hle : 0 ≤ 4 := Nat.zero_le 4
  exact ⟨hcontains, hle, @answers_deeper {} mutualImports "/b.ts" hcontains .bidirectional 0 4 hle⟩

/-- Four files of which the last imports the first, and is imported from it at two removes. -/
def lateImports : Project :=
  { view := (MemoryStore.ofFiles "/"
      [("/a.ts", "./b"), ("/b.ts", "./d"), ("/c.ts", "./a"), ("/d.ts", "./a")]).view
    grammar := singleImport }

theorem outcome_lateImports (depth : Nat) :
    (Session.analyze {} lateImports (.of "/a.ts" .bidirectional depth)).outcome
      = .ok ((Session.graph {} lateImports).report "/a.ts" .bidirectional depth) := by
  have hcontains : lateImports.view.contains (lateImports.view.canonical "/a.ts") = true := by
    decide +kernel
  have hcanonical : lateImports.view.canonical "/a.ts" = "/a.ts" := by decide +kernel
  obtain ⟨found, hfound⟩ : ∃ found, Discovery.run lateImports.view {} = .ok found :=
    Discovery.exists_run_memory _
  rw [outcome_analyze_of_found hcontains hfound, hcanonical]

theorem forwardReached_lateImports :
    (Session.graph {} lateImports).forwardReached "/a.ts" .bidirectional 2
      = [⟨"/a.ts", 0⟩, ⟨"/b.ts", 1⟩, ⟨"/d.ts", 2⟩] := by
  decide +kernel

theorem backwardReached_lateImports :
    (Session.graph {} lateImports).backwardReached "/a.ts" .bidirectional 2
      = [⟨"/a.ts", 0⟩, ⟨"/c.ts", 1⟩, ⟨"/d.ts", 1⟩, ⟨"/b.ts", 2⟩] := by
  decide +kernel

/-- Where the files of `lateImports` stand in the reports of depths one and two. -/
theorem paths_lateImports :
    ((Session.graph {} lateImports).report "/a.ts" .bidirectional 1).paths
        = ["/a.ts", "/b.ts", "/c.ts", "/d.ts"] ∧
      ((Session.graph {} lateImports).report "/a.ts" .bidirectional 2).paths
        = ["/a.ts", "/b.ts", "/d.ts", "/c.ts"] := by
  have hpaths : ∀ depth, ((Session.graph {} lateImports).report "/a.ts" .bidirectional depth).paths
      = (Placement.ofVisits
          ((Session.graph {} lateImports).forwardReached "/a.ts" .bidirectional depth)
          ((Session.graph {} lateImports).backwardReached "/a.ts" .bidirectional depth)).map
        (·.path) := by
    intro depth
    have hplaced := ImportGraph.map_placement_files (Session.graph {} lateImports) "/a.ts"
      .bidirectional depth
    have hmap := congrArg (List.map Placement.path) hplaced
    rwa [List.map_map] at hmap
  constructor
  -- the visits of depth one are those of depth two within one hop
  · rw [hpaths, ImportGraph.forwardReached_eq_filter (Nat.le_succ 1),
      ImportGraph.backwardReached_eq_filter (Nat.le_succ 1), forwardReached_lateImports,
      backwardReached_lateImports, Placement.ofVisits_of_pairwise (by decide) (by decide)]
    decide
  · rw [hpaths, forwardReached_lateImports, backwardReached_lateImports,
      Placement.ofVisits_of_pairwise (by decide) (by decide)]
    decide

/-- **In both directions a file can overtake another when the depth is raised.** The backward search
visits `/c.ts` before `/d.ts`, and so they are listed at depth one. At depth two the forward search
reaches `/d.ts` as well; it is still listed at the backward hop, but now in front of `/c.ts`. -/
theorem reordered_lateImports :
    ∃ shallow deep,
      (Session.analyze {} lateImports (.of "/a.ts" .bidirectional 1)).outcome = .ok shallow ∧
      (Session.analyze {} lateImports (.of "/a.ts" .bidirectional 2)).outcome = .ok deep ∧
      shallow.paths = ["/a.ts", "/b.ts", "/c.ts", "/d.ts"] ∧
      deep.paths = ["/a.ts", "/b.ts", "/d.ts", "/c.ts"] ∧
      deep.backwardFiles = ["/c.ts", "/d.ts", "/b.ts"] ∧
      ¬ shallow.files <+: deep.files := by
  obtain ⟨hone, htwo⟩ := paths_lateImports
  have hbackward : ((Session.graph {} lateImports).report "/a.ts" .bidirectional 2).backwardFiles
      = ["/c.ts", "/d.ts", "/b.ts"] := by
    have hfiles : ((Session.graph {} lateImports).report "/a.ts" .bidirectional 2).backwardFiles
        = (((Session.graph {} lateImports).backwardReached "/a.ts" .bidirectional 2).filter
            (0 < ·.hop)).map (·.path) := rfl
    rw [hfiles, backwardReached_lateImports]
    decide
  refine ⟨_, _, outcome_lateImports 1, outcome_lateImports 2, hone, htwo, hbackward, ?_⟩
  intro hprefix
  have hpaths : ((Session.graph {} lateImports).report "/a.ts" .bidirectional 1).paths
      <+: ((Session.graph {} lateImports).report "/a.ts" .bidirectional 2).paths :=
    hprefix.map FileReport.path
  rw [hone, htwo] at hpaths
  revert hpaths
  decide


end Session

end CodeAtlas.Traversal
