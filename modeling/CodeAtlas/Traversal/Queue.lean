import CodeAtlas.Traversal.Search

/-!
# The queue of a search

A search keeps the visits that are due in a queue. The first one is taken out, and the files that it
leads to are put behind the others, one hop further, unless they have been met before. A visit at
the last hop leads nowhere. So the queue runs empty, however many files the others lead to: it is
gone through in rounds, and each round leaves visits that reach less far (`Reach.acc_append`).
-/

namespace CodeAtlas.Traversal

/-! ## Queues that run empty -/

/-- How many hops each item of a queue may still go. -/
structure Reach where
  left : List Nat

namespace Reach

/-- The first item is taken out, and items that reach less far are put behind the others. -/
def Shrinks (after before : Reach) : Prop :=
  ∃ first rest more, before.left = first :: rest ∧ after.left = rest ++ more ∧
    ∀ n ∈ more, n < first

/-- **A queue is gone through in rounds.** Of one round `front` is left, and `back` is what it has
put behind. The outer induction is on the reach of a round, the inner one on what is left of it. -/
theorem acc_append (bound : Nat) (front back : List Nat) (hfront : ∀ n ∈ front, n ≤ bound)
    (hback : ∀ n ∈ back, n < bound) : Acc Shrinks ⟨front ++ back⟩ := by
  induction bound using Nat.strongRecOn generalizing front back with
  | _ bound ih =>
    induction front generalizing back with
    | nil =>
      cases back with
      | nil => exact .intro _ fun _ ⟨_, _, _, hbefore, _⟩ => by cases hbefore
      | cons n back =>
        -- the next round begins
        have hlt := hback n List.mem_cons_self
        have hnext := ih (bound - 1) (by omega) (n :: back) []
          (fun n hn => Nat.le_sub_one_of_lt (hback n hn)) nofun
        rwa [List.append_nil] at hnext
    | cons first front ihfront =>
      refine .intro _ fun after hafter => ?_
      obtain ⟨first, rest, more, hbefore, hleft, hmore⟩ := hafter
      cases hbefore
      obtain rfl : after = ⟨front ++ (back ++ more)⟩ :=
        congrArg Reach.mk (hleft.trans (List.append_assoc front back more))
      refine ihfront (back ++ more) (fun n hn => hfront n (List.mem_cons_of_mem _ hn)) ?_
      intro n hn
      rcases List.mem_append.1 hn with hn | hn
      · exact hback n hn
      · exact Nat.lt_of_lt_of_le (hmore n hn) (hfront first List.mem_cons_self)

/-- Every queue runs empty. -/
theorem wellFounded_shrinks : WellFounded Shrinks := by
  refine ⟨fun ⟨left⟩ => ?_⟩
  have hbound : ∃ bound, ∀ n ∈ left, n ≤ bound := by
    induction left with
    | nil => exact ⟨0, nofun⟩
    | cons first rest ih =>
      obtain ⟨bound, hbound⟩ := ih
      refine ⟨max first bound, fun n hn => ?_⟩
      rcases List.mem_cons.1 hn with rfl | hn
      · exact Nat.le_max_left n bound
      · exact Nat.le_trans (hbound n hn) (Nat.le_max_right first bound)
  obtain ⟨bound, hbound⟩ := hbound
  have hacc := acc_append bound left [] hbound nofun
  rwa [List.append_nil] at hacc

instance : WellFoundedRelation Reach :=
  ⟨Shrinks, wellFounded_shrinks⟩

end Reach

/-! ## Visits that are due -/

/-- A search under way. -/
structure Pending where
  /-- The files that have been met. -/
  met : List String
  /-- The visits that are due. -/
  due : List Visit

namespace Pending

/-- The search at its start. -/
def start (entry : String) : Pending :=
  ⟨[entry], [⟨entry, 0⟩]⟩

/-- A file that is met for the first time is due for a visit. -/
def meet (hop : Nat) (p : Pending) (path : String) : Pending :=
  if p.met.contains path then p else ⟨p.met ++ [path], p.due ++ [⟨path, hop⟩]⟩

/-- How many hops the visits that are due may still go. -/
def reach (depth : Nat) (p : Pending) : Reach :=
  ⟨p.due.map (depth - ·.hop)⟩

/-- Files that are met become due behind the others. -/
theorem exists_due_foldl_meet (hop : Nat) (paths : List String) (p : Pending) :
    ∃ more, (paths.foldl (meet hop) p).due = p.due ++ more ∧ ∀ v ∈ more, v.hop = hop := by
  induction paths generalizing p with
  | nil => exact ⟨[], (List.append_nil p.due).symm, nofun⟩
  | cons path paths ih =>
    obtain ⟨more, hdue, hmore⟩ := ih (p.meet hop path)
    rw [List.foldl_cons, hdue, meet]
    split
    · exact ⟨more, rfl, hmore⟩
    · refine ⟨⟨path, hop⟩ :: more, List.append_assoc p.due [_] more, ?_⟩
      intro v hv
      rcases List.mem_cons.1 hv with rfl | hv
      · rfl
      · exact hmore v hv

variable {depth : Nat} {visit : Visit} {due : List Visit} {p : Pending}

/-- **A queue reaches less far when a visit is taken out** that leads nowhere. -/
theorem shrinks_of_due (depth : Nat) (h : p.due = visit :: due) :
    Reach.Shrinks (reach depth { p with due }) (p.reach depth) := by
  refine ⟨depth - visit.hop, due.map (depth - ·.hop), [], ?_, (List.append_nil _).symm, nofun⟩
  rw [reach, h, List.map_cons]

/-- So it does when the visit leads to others, one hop further. -/
theorem shrinks_foldl_meet (h : p.due = visit :: due) (hhop : visit.hop < depth)
    (paths : List String) :
    Reach.Shrinks ((paths.foldl (meet (visit.hop + 1)) { p with due }).reach depth)
      (p.reach depth) := by
  obtain ⟨more, hdue, hmore⟩ := exists_due_foldl_meet (visit.hop + 1) paths { p with due }
  refine ⟨depth - visit.hop, due.map (depth - ·.hop), more.map (depth - ·.hop), ?_, ?_, ?_⟩
  · rw [reach, h, List.map_cons]
  · rw [reach, hdue, List.map_append]
  · intro n hn
    obtain ⟨v, hv, rfl⟩ := List.mem_map.1 hn
    have := hmore v hv
    omega

end Pending

end CodeAtlas.Traversal
