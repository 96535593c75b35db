import CodeAtlas.Proofs.Outcome
import CodeAtlas.Proofs.Traversal.Level
import CodeAtlas.Traversal.Search

/-!
# Searches of a graph of files

What the two searches visit, in terms of distances: forward along `ImportGraph.next`, backward along
`ImportGraph.backStep`. Only a file that can be loaded leads anywhere, so every file but the entry
that the backward search visits can be loaded.
-/

namespace CodeAtlas.Traversal

/-! ## 1. Visits -/

section Search

variable {step : String → List String} {depth : Nat} {entry : String}

theorem mem_search {v : Visit} :
    v ∈ search step depth entry ↔ v.hop ≤ depth ∧ IsDistance step entry v.path v.hop := by
  rw [← mem_visits, search, List.mem_map]
  constructor
  · rintro ⟨⟨path, hop⟩, hmem, rfl⟩
    exact hmem
  · exact fun hmem => ⟨(v.path, v.hop), hmem, rfl⟩

variable (step depth entry)

/-- No file is visited twice. -/
theorem nodup_search : ((search step depth entry).map (·.path)).Nodup := by
  have h := nodup_visits step depth entry
  rw [search, List.map_map]
  exact h

/-- The hops never go down. -/
theorem pairwise_search : (search step depth entry).Pairwise (·.hop ≤ ·.hop) := by
  rw [search, List.pairwise_map]
  exact pairwise_visits step depth entry

variable {depth}

/-- A search to a smaller depth visits what the deeper one visits down to it. -/
theorem search_eq_filter {larger : Nat} (h : depth ≤ larger) :
    search step depth entry = (search step larger entry).filter (·.hop ≤ depth) := by
  rw [search, visits_eq_filter step h, search, List.filter_map]
  rfl

variable {step entry}

/-- A search depends on the steps from what it visits only. -/
theorem search_congr {other : String → List String}
    (h : ∀ v ∈ search step depth entry, other v.path = step v.path) :
    search other depth entry = search step depth entry := by
  have hvisits : visits other depth entry = visits step depth entry :=
    visits_congr fun v hv => h ⟨v.1, v.2⟩ (List.mem_map.2 ⟨v, hv, rfl⟩)
  rw [search, search, hvisits]

end Search

/-! ## 2. Loading -/

/-- A file that is loaded has been read and parsed. -/
theorem exists_of_load {project : Project} {path : String} {file : LoadedFile}
    (h : project.load path = .ok file) :
    ∃ text outline, project.view.read path = .ok text ∧
      Outline.ofFile path (project.grammar path text) = .ok outline ∧ file = .ofOutline outline := by
  unfold Project.load at h
  obtain ⟨text, hread, h⟩ := Outcome.exists_of_bind_eq_ok h
  obtain ⟨outline, houtline, h⟩ := Outcome.exists_of_bind_eq_ok h
  exact ⟨text, outline, hread, houtline, (Except.ok.inj h).symm⟩

namespace ImportGraph

variable {graph : ImportGraph} {path target : String}

/-! ## 3. Steps -/

theorem isLoadable_iff :
    graph.project.isLoadable path = true ↔ ∃ file, graph.project.load path = .ok file := by
  unfold Project.isLoadable
  cases graph.project.load path with
  | ok file => exact ⟨fun _ => ⟨file, rfl⟩, fun _ => rfl⟩
  | error e => exact ⟨fun h => absurd h Bool.false_ne_true, fun ⟨_, h⟩ => by cases h⟩

theorem not_isLoadable_iff :
    ¬ graph.project.isLoadable path = true ↔ ∃ e, graph.project.load path = .error e := by
  rw [isLoadable_iff]
  cases graph.project.load path with
  | ok file => exact ⟨fun h => absurd ⟨file, rfl⟩ h, fun ⟨_, h⟩ => by cases h⟩
  | error e => exact ⟨fun _ => ⟨e, rfl⟩, fun _ ⟨_, h⟩ => by cases h⟩

/-- A file that leads somewhere can be loaded. -/
theorem isLoadable_of_mem_next (h : target ∈ graph.next path) :
    graph.project.isLoadable path = true := by
  rw [isLoadable_iff]
  unfold next at h
  split at h
  · rename_i file hload
    exact ⟨file, hload⟩
  · exact absurd h List.not_mem_nil

theorem mem_previous :
    path ∈ graph.previous target ↔ path ∈ graph.lookup.scope ∧ target ∈ graph.next path := by
  unfold previous sourcesIn edges
  simp only [List.mem_map, List.mem_filter, List.contains_iff_mem]
  constructor
  · rintro ⟨_, ⟨⟨source, hsource, rfl⟩, htarget⟩, rfl⟩
    exact ⟨hsource, htarget⟩
  · rintro ⟨hsource, htarget⟩
    exact ⟨_, ⟨⟨path, hsource, rfl⟩, htarget⟩, rfl⟩

/-- A step of the backward search. -/
def backStep (graph : ImportGraph) (path : String) : List String :=
  if graph.project.isLoadable path then graph.previous path else []

theorem mem_backStep :
    path ∈ graph.backStep target ↔ graph.project.isLoadable target = true ∧
      path ∈ graph.lookup.scope ∧ target ∈ graph.next path := by
  unfold backStep
  split
  · rename_i hload
    rw [mem_previous]
    exact ⟨fun h => ⟨hload, h⟩, And.right⟩
  · rename_i hload
    exact ⟨fun h => absurd h List.not_mem_nil, fun h => absurd h.1 hload⟩

theorem backwardVisits_eq (graph : ImportGraph) (depth : Nat) (entry : String) :
    graph.backwardVisits depth entry = search graph.backStep depth entry := rfl

/-- **The backward search meets no file that cannot be loaded**, the entry excepted. -/
theorem isLoadable_of_mem_backwardVisits {depth : Nat} {entry : String} {v : Visit}
    (h : v ∈ graph.backwardVisits depth entry) :
    v = ⟨entry, 0⟩ ∨ graph.project.isLoadable v.path = true := by
  obtain ⟨path, hop⟩ := v
  rw [backwardVisits_eq] at h
  obtain ⟨-, hdist⟩ := mem_search.1 h
  cases hop with
  | zero => exact Or.inl (by rw [hdist.walk.eq_of_zero])
  | succ n =>
    obtain ⟨before, -, hstep⟩ := hdist.exists_pred
    exact Or.inr (isLoadable_of_mem_next (mem_backStep.1 hstep).2.2)

/-! ## 4. Files reached -/

theorem mem_reached {found : List Visit} {v : Visit} :
    v ∈ graph.reached found ↔ v ∈ found ∧ graph.project.isLoadable v.path = true :=
  List.mem_filter

theorem reached_cons_of_isLoadable {v : Visit} (h : graph.project.isLoadable v.path = true)
    (found : List Visit) : graph.reached (v :: found) = v :: graph.reached found :=
  List.filter_cons_of_pos h

theorem reached_cons_of_not {v : Visit} (h : ¬ graph.project.isLoadable v.path = true)
    (found : List Visit) : graph.reached (v :: found) = graph.reached found :=
  List.filter_cons_of_neg h

theorem nodup_reached {found : List Visit} (h : (found.map (·.path)).Nodup) :
    ((graph.reached found).map (·.path)).Nodup :=
  (List.filter_sublist.map _).nodup h

end ImportGraph

end CodeAtlas.Traversal
