import CodeAtlas.Traversal.Search
import Mathlib.Data.List.Nodup

/-!
# Where both searches put a file

Placements are inserted one by one into a list that holds every path once: one for a new path comes
last, and one for a path that is there takes its place if it is nearer. From what one insertion
leaves (`mem_insert`) follows what a run of them leaves (`mem_insertAll`), and from that the main
statement `mem_ofVisits`: a file is placed by the forward search if no visit of the backward search
is nearer, and by the backward search otherwise.
-/

namespace CodeAtlas.Traversal

namespace Placement

/-! ## 1. One insertion -/

variable {p q : Placement} {placed : List Placement}

theorem insert_cons_of_eq (h : q.path = p.path) (rest : List Placement) :
    insert p (q :: rest) = (if p.hop < q.hop then p else q) :: rest := by
  rw [insert, if_pos (beq_iff_eq.2 h)]

theorem insert_cons_of_ne (h : q.path ≠ p.path) (rest : List Placement) :
    insert p (q :: rest) = q :: insert p rest := by
  rw [insert, if_neg (mt beq_iff_eq.1 h)]

/-- A placement for a new path comes last. -/
theorem insert_of_notMem (h : p.path ∉ placed.map (·.path)) : insert p placed = placed ++ [p] := by
  induction placed with
  | nil => rfl
  | cons q rest ih =>
    rw [List.map_cons, List.mem_cons, not_or] at h
    rw [insert_cons_of_ne (Ne.symm h.1), ih h.2, List.cons_append]

/-- What takes the place of an older placement: a nearer one for the same path. -/
def nearer (p q : Placement) : Placement :=
  if q.path = p.path ∧ p.hop < q.hop then p else q

theorem path_nearer (p q : Placement) : (nearer p q).path = q.path := by
  unfold nearer
  split
  · rename_i h
    exact h.1.symm
  · rfl

theorem map_path_nearer (p : Placement) (placed : List Placement) :
    (placed.map (nearer p)).map (·.path) = placed.map (·.path) := by
  rw [List.map_map]
  exact List.map_congr_left fun q _ => path_nearer p q

theorem map_nearer_of_notMem (h : p.path ∉ placed.map (·.path)) : placed.map (nearer p) = placed := by
  rw [List.map_congr_left (g := id), List.map_id]
  intro q hq
  exact if_neg fun hqp => h (List.mem_map.2 ⟨q, hq, hqp.1⟩)

/-- One for a path that is placed already takes its place if it is nearer. -/
theorem insert_of_mem (hnodup : (placed.map (·.path)).Nodup) (h : p.path ∈ placed.map (·.path)) :
    insert p placed = placed.map (nearer p) := by
  induction placed with
  | nil => exact absurd h List.not_mem_nil
  | cons q rest ih =>
    rw [List.map_cons, List.nodup_cons] at hnodup
    rw [List.map_cons]
    by_cases hq : q.path = p.path
    · have hrest : p.path ∉ rest.map (·.path) := hq ▸ hnodup.1
      have hhead : nearer p q = if p.hop < q.hop then p else q := by simp [nearer, hq]
      rw [insert_cons_of_eq hq, map_nearer_of_notMem hrest, hhead]
    · have hrest : p.path ∈ rest.map (·.path) :=
        (List.mem_cons.1 h).resolve_left (Ne.symm hq)
      have hhead : nearer p q = q := if_neg fun hqp => hq hqp.1
      rw [insert_cons_of_ne hq, ih hnodup.2 hrest, hhead]

theorem nodup_insert (h : (placed.map (·.path)).Nodup) :
    ((insert p placed).map (·.path)).Nodup := by
  by_cases hp : p.path ∈ placed.map (·.path)
  · rwa [insert_of_mem h hp, map_path_nearer]
  · rw [insert_of_notMem hp, List.map_append]
    exact h.append (List.nodup_singleton _) (by simpa using hp)

/-- **What one insertion leaves**: the old placements, unless the new one is nearer, and the new
one if it is nearer than what was there. -/
theorem mem_insert (h : (placed.map (·.path)).Nodup) :
    q ∈ insert p placed ↔
      (q ∈ placed ∧ (p.path = q.path → q.hop ≤ p.hop)) ∨
      (q = p ∧ ∀ r ∈ placed, r.path = p.path → p.hop < r.hop) := by
  by_cases hp : p.path ∈ placed.map (·.path)
  · rw [insert_of_mem h hp, List.mem_map]
    constructor
    · rintro ⟨r, hr, rfl⟩
      unfold nearer
      split
      · rename_i hnear
        -- no other placement has this path
        refine Or.inr ⟨rfl, fun s hs hsp => ?_⟩
        rw [List.inj_on_of_nodup_map h hs hr (hsp.trans hnear.1.symm)]
        exact hnear.2
      · rename_i hfar
        exact Or.inl ⟨hr, fun hpath => Nat.le_of_not_lt fun hlt => hfar ⟨hpath.symm, hlt⟩⟩
    · rintro (⟨hq, hle⟩ | ⟨rfl, hlt⟩)
      · refine ⟨q, hq, if_neg fun hnear => ?_⟩
        exact absurd (hle hnear.1.symm) (Nat.not_le_of_lt hnear.2)
      · obtain ⟨r, hr, hrp⟩ := List.mem_map.1 hp
        exact ⟨r, hr, if_pos ⟨hrp, hlt r hr hrp⟩⟩
  · have hother : ∀ r ∈ placed, r.path ≠ p.path := fun r hr hrp => hp (List.mem_map.2 ⟨r, hr, hrp⟩)
    rw [insert_of_notMem hp, List.mem_append, List.mem_singleton]
    constructor
    · rintro (hq | rfl)
      · exact Or.inl ⟨hq, fun hpath => absurd hpath.symm (hother q hq)⟩
      · exact Or.inr ⟨rfl, fun r hr hrp => absurd hrp (hother r hr)⟩
    · rintro (⟨hq, -⟩ | ⟨rfl, -⟩)
      · exact Or.inl hq
      · exact Or.inr rfl

/-! ## 2. A run of insertions -/

/-- The placements with some more. -/
def insertAll (placed more : List Placement) : List Placement :=
  more.foldl (fun placed p => insert p placed) placed

variable {more : List Placement}

theorem nodup_insertAll (h : (placed.map (·.path)).Nodup) :
    ((insertAll placed more).map (·.path)).Nodup := by
  induction more generalizing placed with
  | nil => exact h
  | cons p more ih => exact ih (nodup_insert h)

/-- Placements for new paths that differ come last, in their order. -/
theorem insertAll_of_disjoint
    (h : (placed.map (·.path) ++ more.map (·.path)).Nodup) :
    insertAll placed more = placed ++ more := by
  induction more generalizing placed with
  | nil => exact (List.append_nil placed).symm
  | cons p more ih =>
    have hp : p.path ∉ placed.map (·.path) := fun hmem =>
      (List.nodup_append.1 h).2.2 p.path hmem p.path List.mem_cons_self rfl
    have hstep : insertAll placed (p :: more) = insertAll (placed ++ [p]) more := by
      rw [← insert_of_notMem hp]
      rfl
    rw [hstep, ih, List.append_assoc, List.singleton_append]
    rwa [List.map_append, List.append_assoc]

/-- **What a run of insertions leaves**: the old placements that no new one is nearer than, and
the new ones that are nearer than what was there. -/
theorem mem_insertAll (h : (placed.map (·.path)).Nodup) (hmore : (more.map (·.path)).Nodup) :
    q ∈ insertAll placed more ↔
      (q ∈ placed ∧ ∀ p ∈ more, p.path = q.path → q.hop ≤ p.hop) ∨
      (q ∈ more ∧ ∀ r ∈ placed, r.path = q.path → q.hop < r.hop) := by
  induction more generalizing placed with
  | nil => simp [insertAll]
  | cons p more ih =>
    rw [List.map_cons, List.nodup_cons] at hmore
    have hp : ∀ s ∈ more, s.path ≠ p.path := fun s hs hsp =>
      hmore.1 (List.mem_map.2 ⟨s, hs, hsp⟩)
    have hstep : insertAll placed (p :: more) = insertAll (insert p placed) more := rfl
    rw [hstep, ih (nodup_insert h) hmore.2, mem_insert h]
    constructor
    · rintro (⟨⟨hq, hle⟩ | ⟨rfl, hlt⟩, hall⟩ | ⟨hq, hlt⟩)
      · refine Or.inl ⟨hq, fun s hs hsq => ?_⟩
        rcases List.mem_cons.1 hs with rfl | hs
        · exact hle hsq
        · exact hall s hs hsq
      · exact Or.inr ⟨List.mem_cons_self, hlt⟩
      · refine Or.inr ⟨List.mem_cons_of_mem p hq, fun r hr hrq => ?_⟩
        refine hlt r ((mem_insert h).2 (Or.inl ⟨hr, fun hpr => ?_⟩)) hrq
        exact absurd (hpr.trans hrq).symm (hp q hq)
    · rintro (⟨hq, hall⟩ | ⟨hmem, hlt⟩)
      · exact Or.inl ⟨Or.inl ⟨hq, hall p List.mem_cons_self⟩,
          fun s hs => hall s (List.mem_cons_of_mem p hs)⟩
      · rcases List.mem_cons.1 hmem with rfl | hq
        · exact Or.inl ⟨Or.inr ⟨rfl, hlt⟩, fun s hs hsq => absurd hsq (hp s hs)⟩
        · refine Or.inr ⟨hq, fun r hr hrq => ?_⟩
          rcases (mem_insert h).1 hr with ⟨hr, -⟩ | ⟨rfl, -⟩
          · exact hlt r hr hrq
          · exact absurd hrq.symm (hp q hq)

/-! ## 3. The placements of two searches -/

section Searches

variable {forward backward : List Visit}

theorem map_path_ofVisit (direction : Direction) (found : List Visit) :
    (found.map (ofVisit direction)).map (·.path) = found.map (·.path) := by
  rw [List.map_map]
  rfl

/-- The placements are those of the forward search, with those of the backward search inserted. -/
theorem ofVisits_eq (hforward : (forward.map (·.path)).Nodup) :
    ofVisits forward backward
      = (insertAll (forward.map (ofVisit .forward))
          (backward.map (ofVisit .backward))).mergeSort fun p q => p.hop ≤ q.hop := by
  have hfirst : insertAll [] (forward.map (ofVisit .forward)) = forward.map (ofVisit .forward) := by
    refine insertAll_of_disjoint ?_
    rwa [List.map_nil, List.nil_append, map_path_ofVisit]
  have hall : ofVisits forward backward
      = (insertAll (insertAll [] (forward.map (ofVisit .forward)))
          (backward.map (ofVisit .backward))).mergeSort fun p q => p.hop ≤ q.hop := by
    rw [insertAll, insertAll, ← List.foldl_append]
    rfl
  rw [hall, hfirst]

/-- The placements before they are sorted. -/
theorem ofVisits_perm (hforward : (forward.map (·.path)).Nodup) :
    (ofVisits forward backward).Perm
      (insertAll (forward.map (ofVisit .forward)) (backward.map (ofVisit .backward))) := by
  rw [ofVisits_eq hforward]
  exact List.mergeSort_perm _ _

/-- Every path is placed once. -/
theorem nodup_ofVisits (hforward : (forward.map (·.path)).Nodup) :
    ((ofVisits forward backward).map (·.path)).Nodup := by
  rw [((ofVisits_perm hforward).map _).nodup_iff]
  exact nodup_insertAll (by rwa [map_path_ofVisit])

theorem hop_le_trans (p q r : Placement) (hpq : decide (p.hop ≤ q.hop) = true)
    (hqr : decide (q.hop ≤ r.hop) = true) : decide (p.hop ≤ r.hop) = true := by
  simp only [decide_eq_true_eq] at hpq hqr ⊢
  omega

theorem hop_le_total (p q : Placement) :
    (decide (p.hop ≤ q.hop) || decide (q.hop ≤ p.hop)) = true := by
  simp only [Bool.or_eq_true, decide_eq_true_eq]
  omega

/-- Nearer files come first. -/
theorem pairwise_ofVisits (forward backward : List Visit) :
    (ofVisits forward backward).Pairwise (·.hop ≤ ·.hop) :=
  (List.pairwise_mergeSort hop_le_trans hop_le_total _).imp fun hle => of_decide_eq_true hle

/-- **The nearer search places a file, the forward one if both are as near.** -/
theorem mem_ofVisits (hforward : (forward.map (·.path)).Nodup)
    (hbackward : (backward.map (·.path)).Nodup) :
    q ∈ ofVisits forward backward ↔
      (∃ v ∈ forward, q = ofVisit .forward v ∧
        ∀ w ∈ backward, w.path = v.path → v.hop ≤ w.hop) ∨
      (∃ w ∈ backward, q = ofVisit .backward w ∧
        ∀ v ∈ forward, v.path = w.path → w.hop < v.hop) := by
  rw [(ofVisits_perm hforward).mem_iff,
    mem_insertAll (by rwa [map_path_ofVisit]) (by rwa [map_path_ofVisit])]
  constructor
  · rintro (⟨hq, hle⟩ | ⟨hq, hlt⟩)
    · obtain ⟨v, hv, rfl⟩ := List.mem_map.1 hq
      exact Or.inl ⟨v, hv, rfl, fun w hw => hle _ (List.mem_map_of_mem hw)⟩
    · obtain ⟨w, hw, rfl⟩ := List.mem_map.1 hq
      exact Or.inr ⟨w, hw, rfl, fun v hv => hlt _ (List.mem_map_of_mem hv)⟩
  · rintro (⟨v, hv, rfl, hle⟩ | ⟨w, hw, rfl, hlt⟩)
    · refine Or.inl ⟨List.mem_map_of_mem hv, fun p hp hpv => ?_⟩
      obtain ⟨w, hw, rfl⟩ := List.mem_map.1 hp
      exact hle w hw hpv
    · refine Or.inr ⟨List.mem_map_of_mem hw, fun p hp hpw => ?_⟩
      obtain ⟨v, hv, rfl⟩ := List.mem_map.1 hp
      exact hlt v hv hpw

end Searches

end Placement

end CodeAtlas.Traversal
