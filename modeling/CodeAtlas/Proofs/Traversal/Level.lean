import CodeAtlas.Proofs.Dedup
import CodeAtlas.Traversal.Level
import Mathlib.Order.Bounds.Basic

/-!
# The levels are the distances

A node stands in the level whose number is its distance from the start: the least number of steps
in which a walk leads to it. `levelsFrom` looks at one level at a time, so the proof is one
invariant, `Frontier`, that says what has been seen and what the current level holds after a number
of rounds. One round keeps it, and the induction along the rounds reads off the main statement:
`mem_visits` (a node is visited with exactly its distance, if that is within the depth), beside
`nodup_visits` (no node is visited twice) and `pairwise_visits` (nearer nodes come first). A smaller
depth leaves out the visits beyond it and changes nothing else (`visits_eq_filter`).
-/

namespace CodeAtlas.Traversal

variable {α : Type} {step : α → List α}

/-! ## 1. Walks and distances -/

/-- A walk of `n` steps from one node to another. -/
inductive Walk (step : α → List α) : Nat → α → α → Prop where
  | refl (a : α) : Walk step 0 a a
  | snoc {n : Nat} {a b c : α} : Walk step n a b → c ∈ step b → Walk step (n + 1) a c

namespace Walk

theorem eq_of_zero {a b : α} (h : Walk step 0 a b) : a = b := by
  cases h
  rfl

/-- A step in front of a walk. -/
theorem cons {n : Nat} {a b c : α} (hab : b ∈ step a) (h : Walk step n b c) :
    Walk step (n + 1) a c := by
  induction h with
  | refl b => exact (refl a).snoc hab
  | snoc _ hc ih => exact (ih hab).snoc hc

/-- A walk does not leave what the steps do not leave. -/
theorem mem_of_closed {P : α → Prop} (closed : ∀ a b, P a → b ∈ step a → P b) {n : Nat} {a b : α}
    (h : Walk step n a b) (ha : P a) : P b := by
  induction h with
  | refl => exact ha
  | snoc _ hc ih => exact closed _ _ (ih ha) hc

end Walk

/-- **Distance**: the least number of steps from one node to another. -/
def IsDistance (step : α → List α) (a b : α) (n : Nat) : Prop :=
  IsLeast {m | Walk step m a b} n

namespace IsDistance

theorem walk {a b : α} {n : Nat} (h : IsDistance step a b n) : Walk step n a b := h.1

theorem le {a b : α} {n m : Nat} (h : IsDistance step a b n) (hm : Walk step m a b) : n ≤ m :=
  h.2 hm

theorem unique {a b : α} {n m : Nat} (hn : IsDistance step a b n) (hm : IsDistance step a b m) :
    n = m :=
  IsLeast.unique hn hm

theorem self (a : α) : IsDistance step a a 0 :=
  ⟨Walk.refl a, fun _ _ => Nat.zero_le _⟩

/-- The node before the last of a shortest walk is one step nearer. -/
theorem exists_pred {a c : α} {n : Nat} (h : IsDistance step a c (n + 1)) :
    ∃ b, IsDistance step a b n ∧ c ∈ step b := by
  obtain ⟨hwalk, hleast⟩ := h
  cases hwalk with
  | @snoc _ _ b _ hb hc =>
    refine ⟨b, ⟨hb, fun m hm => ?_⟩, hc⟩
    have := hleast (Walk.snoc hm hc)
    omega

end IsDistance

/-! ## 2. Numbered levels -/

/-- The nodes of levels, each with the number of its level, counted from `hop` on. -/
def numbered (hop : Nat) (levels : List (List α)) : List (α × Nat) :=
  (levels.zipIdx hop).flatMap fun (level, hop) => level.map fun node => (node, hop)

@[simp] theorem numbered_nil (hop : Nat) : numbered hop ([] : List (List α)) = [] := rfl

@[simp] theorem numbered_cons (hop : Nat) (level : List α) (levels : List (List α)) :
    numbered hop (level :: levels)
      = level.map (fun node => (node, hop)) ++ numbered (hop + 1) levels := rfl

theorem le_of_mem_numbered {hop : Nat} {levels : List (List α)} {v : α × Nat}
    (h : v ∈ numbered hop levels) : hop ≤ v.2 := by
  induction levels generalizing hop with
  | nil => exact absurd h List.not_mem_nil
  | cons level levels ih =>
    rw [numbered_cons, List.mem_append, List.mem_map] at h
    rcases h with ⟨a, -, rfl⟩ | h
    · exact Nat.le_refl hop
    · have := ih h
      omega

/-- The numbers never go down. -/
theorem pairwise_numbered (hop : Nat) (levels : List (List α)) :
    (numbered hop levels).Pairwise (·.2 ≤ ·.2) := by
  induction levels generalizing hop with
  | nil => exact List.Pairwise.nil
  | cons level levels ih =>
    rw [numbered_cons, List.pairwise_append]
    refine ⟨?_, ih (hop + 1), ?_⟩
    · rw [List.pairwise_map]
      exact List.pairwise_of_forall fun _ _ => Nat.le_refl hop
    · intro v hv w hw
      obtain ⟨a, -, rfl⟩ := List.mem_map.1 hv
      exact Nat.le_of_succ_le (le_of_mem_numbered hw)

theorem map_fst_pairs (hop : Nat) (level : List α) :
    (level.map fun node => (node, hop)).map (·.1) = level := by
  rw [List.map_map]
  exact List.map_id level

/-- A level within a bound stays, and levels beyond it go. -/
theorem filter_pairs_of_le {hop bound : Nat} (h : hop ≤ bound) (level : List α) :
    (level.map fun node => (node, hop)).filter (·.2 ≤ bound)
      = level.map fun node => (node, hop) := by
  rw [List.filter_eq_self]
  intro v hv
  obtain ⟨node, -, rfl⟩ := List.mem_map.1 hv
  exact decide_eq_true h

theorem filter_numbered_of_lt {hop bound : Nat} (h : bound < hop) (levels : List (List α)) :
    (numbered hop levels).filter (·.2 ≤ bound) = [] := by
  rw [List.filter_eq_nil_iff]
  intro v hv hle
  have hbeyond : bound < v.2 := Nat.lt_of_lt_of_le h (le_of_mem_numbered hv)
  exact absurd (of_decide_eq_true hle) (Nat.not_le_of_lt hbeyond)

/-! ## 3. The invariant -/

/-- **The invariant of the rounds.** After `hop` rounds the nodes within that distance have been
seen, and the level holds those at that distance. -/
structure Frontier (step : α → List α) (start : α) (hop : Nat) (seen level : List α) : Prop where
  mem_seen : ∀ a, a ∈ seen ↔ ∃ n ≤ hop, Walk step n start a
  mem_level : ∀ a, a ∈ level ↔ IsDistance step start a hop
  nodup_level : level.Nodup

namespace Frontier

variable {start : α} {hop : Nat} {seen level : List α}

theorem initial (start : α) : Frontier step start 0 [start] [start] where
  mem_seen a := by
    rw [List.mem_singleton]
    constructor
    · rintro rfl
      exact ⟨0, Nat.le_refl 0, Walk.refl a⟩
    · rintro ⟨n, hn, hwalk⟩
      rw [Nat.le_zero.1 hn] at hwalk
      exact hwalk.eq_of_zero.symm
  mem_level a := by
    rw [List.mem_singleton]
    constructor
    · rintro rfl
      exact IsDistance.self a
    · exact fun h => h.walk.eq_of_zero.symm
  nodup_level := List.nodup_singleton start

theorem mem_level_pairs (h : Frontier step start hop seen level) (a : α) (n : Nat) :
    (a, n) ∈ (level.map fun node => (node, hop)) ↔ n = hop ∧ IsDistance step start a n := by
  rw [List.mem_map]
  constructor
  · rintro ⟨b, hb, hbn⟩
    cases hbn
    exact ⟨rfl, (h.mem_level a).1 hb⟩
  · rintro ⟨rfl, ha⟩
    exact ⟨a, (h.mem_level a).2 ha, rfl⟩

end Frontier

/-! ## 4. What one round does -/

section Rounds

variable [BEq α]

@[simp] theorem levelsFrom_nil (depth : Nat) (seen : List α) :
    levelsFrom step depth seen [] = [] := by
  cases depth <;> rfl

theorem numbered_levelsFrom_zero (hop : Nat) (seen level : List α) :
    numbered hop (levelsFrom step 0 seen level) = level.map fun node => (node, hop) := by
  cases level with
  | nil => rw [levelsFrom_nil, numbered_nil, List.map_nil]
  | cons a rest => rw [levelsFrom, numbered_cons, numbered_nil, List.append_nil]; simp

/-- A round, whether or not its level is empty: nothing comes after an empty level, and the next
level would be empty too. -/
theorem numbered_levelsFrom_succ (hop depth : Nat) (seen level : List α) :
    numbered hop (levelsFrom step (depth + 1) seen level)
      = (level.map fun node => (node, hop)) ++
        numbered (hop + 1) (levelsFrom step depth (seen ++ fresh seen (level.flatMap step))
          (fresh seen (level.flatMap step))) := by
  cases level with
  | nil =>
    have hfresh : fresh seen (([] : List α).flatMap step) = [] := rfl
    rw [hfresh, levelsFrom_nil, levelsFrom_nil, numbered_nil, numbered_nil, List.map_nil,
      List.append_nil]
  | cons a rest => rw [levelsFrom, numbered_cons]; simp

/-- Two ways to step that agree on what is visited lead to the same levels. -/
theorem levelsFrom_congr {other : α → List α} {hop depth : Nat} {seen level : List α}
    (h : ∀ v ∈ numbered hop (levelsFrom step depth seen level), other v.1 = step v.1) :
    levelsFrom other depth seen level = levelsFrom step depth seen level := by
  induction depth generalizing hop seen level with
  | zero => cases level <;> rfl
  | succ depth ih =>
    rw [numbered_levelsFrom_succ] at h
    have hlevel : level.flatMap other = level.flatMap step :=
      List.flatMap_congr fun a ha =>
        h (a, hop) (List.mem_append_left _ (List.mem_map.2 ⟨a, ha, rfl⟩))
    cases level with
    | nil => rw [levelsFrom_nil, levelsFrom_nil]
    | cons a rest =>
      rw [levelsFrom, levelsFrom, hlevel, ih fun v hv => h v (List.mem_append_right _ hv)]
      · simp
      · simp

/-- **What is not visited does not matter.** -/
theorem visits_congr {other : α → List α} {depth : Nat} {start : α}
    (h : ∀ v ∈ visits step depth start, other v.1 = step v.1) :
    visits other depth start = visits step depth start := by
  have hlevels : levels other depth start = levels step depth start := levelsFrom_congr h
  rw [visits, visits, hlevels]

theorem pairwise_visits (step : α → List α) (depth : Nat) (start : α) :
    (visits step depth start).Pairwise (·.2 ≤ ·.2) :=
  pairwise_numbered 0 _

/-- The levels down to a depth are those down to a greater one, up to that depth. Both sides take
the same first level, so the induction is on the smaller depth. -/
theorem numbered_levelsFrom_eq_filter {depth larger : Nat} (h : depth ≤ larger) (hop : Nat)
    (seen level : List α) :
    numbered hop (levelsFrom step depth seen level)
      = (numbered hop (levelsFrom step larger seen level)).filter (·.2 ≤ hop + depth) := by
  induction depth generalizing hop seen level larger with
  | zero =>
    rw [numbered_levelsFrom_zero, Nat.add_zero]
    cases larger with
    | zero => rw [numbered_levelsFrom_zero, filter_pairs_of_le (Nat.le_refl hop)]
    -- the deeper search goes on, with levels that are all beyond the bound
    | succ larger =>
      rw [numbered_levelsFrom_succ, List.filter_append, filter_pairs_of_le (Nat.le_refl hop),
        filter_numbered_of_lt (Nat.lt_succ_self hop), List.append_nil]
  | succ depth ih =>
    obtain ⟨larger, rfl⟩ : ∃ n, larger = n + 1 := ⟨larger - 1, by omega⟩
    have hbound : hop + (depth + 1) = hop + 1 + depth := by omega
    rw [numbered_levelsFrom_succ, numbered_levelsFrom_succ, List.filter_append,
      filter_pairs_of_le (Nat.le_add_right hop _), hbound, ← ih (Nat.le_of_succ_le_succ h)]

/-- **A smaller depth leaves out the visits beyond it.** -/
theorem visits_eq_filter (step : α → List α) {depth larger : Nat} (h : depth ≤ larger) (start : α) :
    visits step depth start = (visits step larger start).filter (·.2 ≤ depth) := by
  have hfilter : visits step depth start
      = (visits step larger start).filter (·.2 ≤ 0 + depth) :=
    numbered_levelsFrom_eq_filter h 0 [start] [start]
  rwa [Nat.zero_add] at hfilter

variable [LawfulBEq α] {start : α} {hop : Nat} {seen level : List α}

theorem mem_fresh {seen reached : List α} {a : α} :
    a ∈ fresh seen reached ↔ a ∈ reached ∧ a ∉ seen := by
  simp [fresh, List.mem_eraseDups]

namespace Frontier

/-- The nodes that the next round adds are those one step further away. -/
theorem mem_fresh_iff (h : Frontier step start hop seen level) (a : α) :
    a ∈ fresh seen (level.flatMap step) ↔ IsDistance step start a (hop + 1) := by
  rw [mem_fresh, List.mem_flatMap, h.mem_seen]
  constructor
  · rintro ⟨⟨b, hb, hab⟩, hnew⟩
    refine ⟨((h.mem_level b).1 hb).walk.snoc hab, fun m hm => ?_⟩
    by_contra hlt
    exact hnew ⟨m, by omega, hm⟩
  · intro ha
    obtain ⟨b, hb, hab⟩ := ha.exists_pred
    refine ⟨⟨b, (h.mem_level b).2 hb, hab⟩, ?_⟩
    rintro ⟨n, hn, hwalk⟩
    have := ha.le hwalk
    omega

/-- **One round keeps the invariant.** -/
theorem next (h : Frontier step start hop seen level) :
    Frontier step start (hop + 1) (seen ++ fresh seen (level.flatMap step))
      (fresh seen (level.flatMap step)) where
  mem_seen a := by
    rw [List.mem_append, h.mem_fresh_iff, h.mem_seen]
    constructor
    · rintro (⟨n, hn, hwalk⟩ | ha)
      · exact ⟨n, by omega, hwalk⟩
      · exact ⟨hop + 1, Nat.le_refl _, ha.walk⟩
    · rintro ⟨n, hn, hwalk⟩
      by_cases hseen : ∃ m ≤ hop, Walk step m start a
      · exact Or.inl hseen
      -- no walk is shorter than the rounds so far, so this one is as long as the next round
      · have hlong : ∀ m, Walk step m start a → hop + 1 ≤ m := by
          intro m hm
          by_contra hlt
          exact hseen ⟨m, by omega, hm⟩
        have hn' : n = hop + 1 := Nat.le_antisymm hn (hlong n hwalk)
        exact Or.inr ⟨hn' ▸ hwalk, fun m hm => hlong m hm⟩
  mem_level := h.mem_fresh_iff
  nodup_level := nodup_eraseDups _

end Frontier

/-! ## 5. The visits -/

/-- From a frontier on, a node is visited with its distance if that is not below the rounds so far
and not beyond the depth. The induction is on the rounds that are left. -/
theorem Frontier.mem_numbered (h : Frontier step start hop seen level) (depth : Nat) (a : α)
    (n : Nat) :
    (a, n) ∈ numbered hop (levelsFrom step depth seen level) ↔
      hop ≤ n ∧ n ≤ hop + depth ∧ IsDistance step start a n := by
  induction depth generalizing hop seen level with
  | zero =>
    rw [numbered_levelsFrom_zero, h.mem_level_pairs]
    constructor
    · rintro ⟨rfl, ha⟩
      exact ⟨Nat.le_refl n, Nat.le_refl n, ha⟩
    · rintro ⟨hle, hge, ha⟩
      exact ⟨Nat.le_antisymm hge hle, ha⟩
  | succ depth ih =>
    rw [numbered_levelsFrom_succ, List.mem_append, h.mem_level_pairs, ih h.next]
    constructor
    · rintro (⟨rfl, ha⟩ | ⟨hle, hge, ha⟩)
      · exact ⟨Nat.le_refl n, by omega, ha⟩
      · exact ⟨by omega, by omega, ha⟩
    · rintro ⟨hle, hge, ha⟩
      rcases Nat.lt_or_eq_of_le hle with hlt | heq
      · exact Or.inr ⟨hlt, by omega, ha⟩
      · exact Or.inl ⟨heq.symm, ha⟩

/-- From a frontier on, no node is visited twice: it would lie at two distances. -/
theorem Frontier.nodup_numbered (h : Frontier step start hop seen level) (depth : Nat) :
    ((numbered hop (levelsFrom step depth seen level)).map (·.1)).Nodup := by
  induction depth generalizing hop seen level with
  | zero =>
    rw [numbered_levelsFrom_zero, map_fst_pairs]
    exact h.nodup_level
  | succ depth ih =>
    rw [numbered_levelsFrom_succ, List.map_append, map_fst_pairs, List.nodup_append]
    refine ⟨h.nodup_level, ih h.next, ?_⟩
    rintro a ha b hb rfl
    obtain ⟨⟨a, n⟩, hmem, rfl⟩ := List.mem_map.1 hb
    obtain ⟨hle, -, hdist⟩ := (h.next.mem_numbered depth a n).1 hmem
    have := hdist.unique ((h.mem_level a).1 ha)
    omega

/-- **The visits are the nodes within the depth, each with its distance.** -/
theorem mem_visits {depth : Nat} {start a : α} {n : Nat} :
    (a, n) ∈ visits step depth start ↔ n ≤ depth ∧ IsDistance step start a n := by
  have hinitial : Frontier step start 0 [start] [start] := Frontier.initial start
  have h := hinitial.mem_numbered depth a n
  rw [Nat.zero_add] at h
  exact h.trans ⟨And.right, fun h => ⟨Nat.zero_le n, h⟩⟩

theorem nodup_visits (step : α → List α) (depth : Nat) (start : α) :
    ((visits step depth start).map (·.1)).Nodup :=
  (Frontier.initial start).nodup_numbered depth

end Rounds

end CodeAtlas.Traversal
