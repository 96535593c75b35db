import CodeAtlas.Proofs.Traversal.Search
import CodeAtlas.Traversal.Queue

/-!
# Searching with a queue

A search can be run with a queue: the first visit that is due is taken out, and the files that it
leads to become due if they have not been met before. A file that cannot be loaded leads nowhere,
so it is taken out and nothing more. `search` finds the same visits level by level. In between two
levels the queue holds the rest of the one and the beginning of the next, and what has been met is
what these two know (`drains_level`). So the queue runs empty, and what has been taken out of it is
what `search` gives (`drains_iff`): no file is taken out twice, whatever the steps are.
-/

namespace CodeAtlas.Traversal

/-! ## 1. Fresh nodes, one after another -/

section Fresh

variable {α : Type} [BEq α] [LawfulBEq α]

theorem fresh_append (seen reached more : List α) :
    fresh seen (reached ++ more)
      = fresh seen reached ++ fresh (seen ++ fresh seen reached) more := by
  -- what the first part has brought is known when the second part comes
  have hknown : ∀ a, (!(reached.filter (!seen.contains ·)).contains a && !seen.contains a)
      = !(seen ++ fresh seen reached).contains a := by
    intro a
    by_cases hseen : a ∈ seen <;> simp [fresh, hseen]
  unfold fresh at hknown ⊢
  rw [List.filter_append, List.eraseDups_append, List.removeAll, List.filter_filter]
  simp only [List.elem_eq_contains, hknown]

theorem fresh_singleton_of_mem {seen : List α} {a : α} (h : a ∈ seen) : fresh seen [a] = [] := by
  simp [fresh, h]

theorem fresh_singleton_of_notMem {seen : List α} {a : α} (h : a ∉ seen) :
    fresh seen [a] = [a] := by
  have hfilter : [a].filter (!seen.contains ·) = [a] := by simp [h]
  rw [fresh, hfilter, List.eraseDups_cons]
  rfl

end Fresh

/-! ## 2. The queue -/

namespace Pending

/-- Takes out the first visit that is due. At the last hop no step is taken. -/
def dequeue (step : String → List String) (depth : Nat) (p : Pending) : Option (Visit × Pending) :=
  match p.due with
  | [] => none
  | visit :: due =>
    let rest : Pending := { p with due }
    some (visit, if visit.hop < depth then (step visit.path).foldl (meet (visit.hop + 1)) rest
      else rest)

section Dequeue

variable {step : String → List String} {depth : Nat} {p rest : Pending} {visit : Visit}

theorem due_of_dequeue_eq_none (h : p.dequeue step depth = none) : p.due = [] := by
  unfold dequeue at h
  split at h
  · assumption
  · cases h

/-- What is taken out stands first. -/
theorem exists_due_of_dequeue_eq_some (h : p.dequeue step depth = some (visit, rest)) :
    ∃ due, p.due = visit :: due ∧
      rest = if visit.hop < depth then (step visit.path).foldl (meet (visit.hop + 1)) { p with due }
        else { p with due } := by
  unfold dequeue at h
  split at h
  · cases h
  · rename_i first due hdue
    cases h
    exact ⟨due, hdue, rfl⟩

end Dequeue

/-- **The queue runs empty**, and these visits are taken out of it, in this order. -/
inductive Drains (step : String → List String) (depth : Nat) : Pending → List Visit → Prop where
  | empty {p : Pending} : p.dequeue step depth = none → Drains step depth p []
  | next {p rest : Pending} {visit : Visit} {visits : List Visit} :
      p.dequeue step depth = some (visit, rest) → Drains step depth rest visits →
      Drains step depth p (visit :: visits)

variable {step : String → List String} {depth hop : Nat} {p : Pending}

/-- There is one way only to run empty. -/
theorem Drains.unique {visits others : List Visit} (h : Drains step depth p visits)
    (hothers : Drains step depth p others) : visits = others := by
  induction h generalizing others with
  | empty hnone =>
    cases hothers with
    | empty => rfl
    | next hsome => cases hnone.symm.trans hsome
  | next hsome _ ih =>
    cases hothers with
    | empty hnone => cases hnone.symm.trans hsome
    | next hsome' hrest =>
      cases hsome.symm.trans hsome'
      rw [ih hrest]

/-! ## 3. One step -/

/-- Visits that are due at one hop. -/
def dueAt (hop : Nat) (paths : List String) : List Visit :=
  paths.map fun path => ⟨path, hop⟩

@[simp] theorem dueAt_nil (hop : Nat) : dueAt hop [] = [] := rfl

theorem dueAt_append (hop : Nat) (paths more : List String) :
    dueAt hop (paths ++ more) = dueAt hop paths ++ dueAt hop more :=
  List.map_append

/-- **Files that are met one after another** become due if they are fresh, each once. -/
theorem foldl_meet (hop : Nat) (reached met : List String) (due : List Visit) :
    reached.foldl (meet hop) ⟨met, due⟩
      = ⟨met ++ fresh met reached, due ++ dueAt hop (fresh met reached)⟩ := by
  induction reached generalizing met due with
  | nil =>
    have hnone : fresh met [] = [] := rfl
    rw [hnone, List.foldl_nil, List.append_nil, dueAt_nil, List.append_nil]
  | cons path reached ih =>
    have hsplit : fresh met (path :: reached)
        = fresh met [path] ++ fresh (met ++ fresh met [path]) reached := fresh_append met [path] _
    rw [List.foldl_cons, hsplit]
    by_cases hmet : path ∈ met
    -- a file that has been met is not due again
    · have hmeet : meet hop ⟨met, due⟩ path = ⟨met, due⟩ := if_pos (List.contains_iff_mem.2 hmet)
      rw [hmeet, ih, fresh_singleton_of_mem hmet, List.append_nil, List.nil_append]
    · have hmeet : meet hop ⟨met, due⟩ path = ⟨met ++ [path], due ++ [⟨path, hop⟩]⟩ :=
        if_neg fun h => hmet (List.contains_iff_mem.1 h)
      rw [hmeet, ih, fresh_singleton_of_notMem hmet, List.append_assoc, List.append_assoc]
      rfl

/-- At the last hop a visit leads nowhere. -/
theorem dequeue_of_le {visit : Visit} (h : depth ≤ visit.hop) (met : List String)
    (due : List Visit) :
    dequeue step depth ⟨met, visit :: due⟩ = some (visit, ⟨met, due⟩) := by
  simp only [dequeue, if_neg (Nat.not_lt_of_le h)]

/-- Before it, the fresh files that the visit leads to become due one hop further. -/
theorem dequeue_of_lt {visit : Visit} (h : visit.hop < depth) (met : List String)
    (due : List Visit) :
    dequeue step depth ⟨met, visit :: due⟩
      = some (visit, ⟨met ++ fresh met (step visit.path),
          due ++ dueAt (visit.hop + 1) (fresh met (step visit.path))⟩) := by
  simp only [dequeue, if_pos h, foldl_meet]

/-! ## 4. One level -/

/-- The last level is taken out as it is. -/
theorem drains_last (h : depth ≤ hop) (met level : List String) :
    Drains step depth ⟨met, dueAt hop level⟩ (dueAt hop level) := by
  induction level with
  | nil => exact .empty rfl
  | cons path level ih => exact .next (dequeue_of_le h met _) ih

/-- **A level is taken out, and the next one becomes due.** The induction is on the part of the
level that is still due. Of the part that is `done`, the fresh files have been met, and they stand
behind the rest of the level. -/
theorem drains_level (h : hop < depth) (seen done todo : List String) {visits : List Visit}
    (hnext : Drains step depth ⟨seen ++ fresh seen ((done ++ todo).flatMap step),
      dueAt (hop + 1) (fresh seen ((done ++ todo).flatMap step))⟩ visits) :
    Drains step depth ⟨seen ++ fresh seen (done.flatMap step),
      dueAt hop todo ++ dueAt (hop + 1) (fresh seen (done.flatMap step))⟩
      (dueAt hop todo ++ visits) := by
  induction todo generalizing done with
  | nil =>
    -- nothing is left of this level, and the next one is complete
    rw [List.append_nil] at hnext
    exact hnext
  | cons path todo ih =>
    -- the visit of `path` puts behind the queue what no file before it has brought
    have hfresh : fresh seen ((done ++ [path]).flatMap step)
        = fresh seen (done.flatMap step)
          ++ fresh (seen ++ fresh seen (done.flatMap step)) (step path) := by
      rw [List.flatMap_append, List.flatMap_singleton, fresh_append]
    rw [List.append_cons] at hnext
    have hrest := ih (done ++ [path]) hnext
    rw [hfresh, dueAt_append, ← List.append_assoc, ← List.append_assoc] at hrest
    exact .next (dequeue_of_lt h _ _) hrest

/-! ## 5. All levels -/

/-- Visits as they are numbered in levels. -/
def ofPairs (pairs : List (String × Nat)) : List Visit :=
  pairs.map fun (path, hop) => ⟨path, hop⟩

theorem ofPairs_append (pairs more : List (String × Nat)) :
    ofPairs (pairs ++ more) = ofPairs pairs ++ ofPairs more :=
  List.map_append

theorem ofPairs_level (hop : Nat) (level : List String) :
    ofPairs (level.map fun path => (path, hop)) = dueAt hop level :=
  List.map_map

/-- **All levels are taken out**, one after another. -/
theorem drains_levels (hop left : Nat) (seen level : List String) :
    Drains step (hop + left) ⟨seen, dueAt hop level⟩
      (ofPairs (numbered hop (levelsFrom step left seen level))) := by
  induction left generalizing hop seen level with
  | zero =>
    rw [numbered_levelsFrom_zero, ofPairs_level]
    exact drains_last (Nat.le_refl hop) seen level
  | succ left ih =>
    have hnext := ih (hop + 1) (seen ++ fresh seen (level.flatMap step))
      (fresh seen (level.flatMap step))
    have hdepth : hop + 1 + left = hop + (left + 1) := by omega
    rw [hdepth] at hnext
    -- nothing of this level is done
    have hnone : fresh seen (([] : List String).flatMap step) = [] := rfl
    have hlevel := drains_level (by omega) seen [] level hnext
    rw [hnone, List.append_nil, dueAt_nil, List.append_nil] at hlevel
    rwa [numbered_levelsFrom_succ, ofPairs_append, ofPairs_level]

/-- **A search takes out of its queue what it visits**, and then the queue is empty. -/
theorem drains_iff {entry : String} {visits : List Visit} :
    Drains step depth (start entry) visits ↔ visits = search step depth entry := by
  have hdrains : Drains step depth (start entry) (search step depth entry) := by
    have hlevels : Drains step (0 + depth) (start entry) (search step depth entry) :=
      drains_levels 0 depth [entry] [entry]
    rwa [Nat.zero_add] at hlevels
  constructor
  · exact fun h => h.unique hdrains
  · rintro rfl
    exact hdrains

end Pending

end CodeAtlas.Traversal
