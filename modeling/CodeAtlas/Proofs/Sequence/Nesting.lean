import CodeAtlas.Proofs.Sequence.Origin
import CodeAtlas.Proofs.Syntax.Ancestor
import Mathlib.Data.List.Pairwise

/-!
# Scopes nest like the tree

Scopes are found by one pass over the captures with a stack of open frames, and the scope around a
node by a search backwards through them. Where the tree is laid out and scopes take room, both give
what the spans say: the smallest of the scopes that hold the node (`Scope.nests_captures`). Between two
scopes that touch a node may stand that covers nothing. Both hold it, and the search finds the later
one, which need not be the smaller (`Scope.not_findsInnermost_touching`).

What carries this is that a later scope lies inside an earlier one or starts after its end
(`Scope.Follows`). So a frame that the pass has closed holds nothing that comes later, and of two
scopes that hold one node the later is the smaller.
-/

namespace CodeAtlas

open Syntax

/-- Of two different items of a list one stands before the other. -/
theorem rel_or_rel_of_pairwise {α : Type} {R : α → α → Prop} {items : List α}
    (h : items.Pairwise R) {a b : α} (ha : a ∈ items) (hb : b ∈ items) (hne : a ≠ b) :
    R a b ∨ R b a := by
  have hsymm : Std.Symm fun a b : α => R a b ∨ R b a := ⟨fun _ _ => Or.symm⟩
  have hor : items.Pairwise fun a b => R a b ∨ R b a := h.imp Or.inl
  exact hor.forall ha hb hne

/-- The number of bytes that a frame spans. -/
def Frame.size (f : Frame) : Nat :=
  f.stop - f.start

namespace Scope

variable {frames : List Frame} {capture : Capture CallTag} {captures : List (Capture CallTag)}
  {f : Frame} {s t : Scope} {scopes : List Scope} {node : Node}

/-! ## 1. The innermost scope -/

/-- **The innermost of some scopes with a property**: all others with it are larger. -/
structure IsInnermost (scopes : List Scope) (p : Scope → Prop) (s : Scope) : Prop where
  mem : s ∈ scopes
  holds : p s
  smallest : ∀ t ∈ scopes, p t → t ≠ s → s.frame.size < t.frame.size

/-- **What a search for the innermost scope finds**: that scope, or nothing where no scope has the
property. -/
def FindsInnermost (scopes : List Scope) (p : Scope → Prop) : Option Scope → Prop
  | some s => IsInnermost scopes p s
  | none => ∀ t ∈ scopes, ¬ p t

/-- There is only one. -/
theorem IsInnermost.unique {p : Scope → Prop} (hs : IsInnermost scopes p s)
    (ht : IsInnermost scopes p t) : s = t := by
  by_contra hne
  have hlt := hs.smallest t ht.mem ht.holds (Ne.symm hne)
  have hgt := ht.smallest s hs.mem hs.holds hne
  omega

/-- **A node stands between two scopes**: both hold it, and one ends where the other begins or before.
Then it covers nothing. -/
def IsBetween (scopes : List Scope) (node : Node) : Prop :=
  ∃ s ∈ scopes, ∃ t ∈ scopes, s.frame.Encloses node.start node.stop ∧
    t.frame.Encloses node.start node.stop ∧ s.frame.stop ≤ t.frame.start

/-- A node that takes room stands between no scopes. -/
theorem not_isBetween_of_takesRoom (h : node.TakesRoom) : ¬ IsBetween scopes node := by
  rintro ⟨s, -, t, -, hs, ht, hle⟩
  unfold Node.TakesRoom at h
  unfold Frame.Encloses at hs ht
  omega

/-- **A span follows another**: it is a smaller part of it, or starts after its end. -/
def Follows (start stop start' stop' : Nat) : Prop :=
  start ≤ start' ∧ (stop' ≤ stop ∧ (start < start' ∨ stop' < stop) ∨ stop ≤ start')

/-- **Captures come in order while some frames are open**: every capture takes room, and follows the
open frames and the captures before it. -/
structure InOrder (frames : List Frame) (captures : List (Capture CallTag)) : Prop where
  room : ∀ c ∈ captures, c.node.TakesRoom
  follows : captures.Pairwise fun a b =>
    Follows a.node.start a.node.stop b.node.start b.node.stop
  follows_open : ∀ f ∈ frames, ∀ c ∈ captures, Follows f.start f.stop c.node.start c.node.stop

/-- They do so in a tree that is laid out, whatever order they were found in. -/
theorem inOrder_captures {root : Node} {found : List (Capture CallTag)}
    (hlaid : root.IsLaidOut) (hfound : ∀ c ∈ found, c.site ∈ root.sites)
    (hroom : ∀ c ∈ (Capture.inOrder found).filter opensScope, c.node.TakesRoom)
    (hdistinct : ((Capture.inOrder found).filter opensScope).Pairwise fun a b =>
      ¬ (a.node.start = b.node.start ∧ a.node.stop = b.node.stop)) :
    InOrder [] ((Capture.inOrder found).filter opensScope) := by
  have hbefore := (Capture.pairwise_before_inOrder found).filter opensScope
  have hsite : ∀ c ∈ (Capture.inOrder found).filter opensScope, c.site ∈ root.sites := fun c hc =>
    hfound c (Capture.mem_of_mem_inOrder (List.mem_filter.1 hc).1)
  refine ⟨hroom, ?_, fun f hf => absurd hf List.not_mem_nil⟩
  refine (hbefore.and hdistinct).imp_of_mem fun {a b} ha hb ⟨hab, hne⟩ => ?_
  rw [Capture.before_iff] at hab
  have hcases := Node.liesIn_or_le hlaid (hsite a ha) (hsite b hb) (hroom b hb) hab
  unfold Node.LiesIn at hcases
  unfold Follows Capture.node at *
  omega

namespace InOrder

variable {rest : List (Capture CallTag)}

/-- What a capture leaves open is in order with the captures after it. -/
theorem dropWhile (h : InOrder frames (capture :: rest)) :
    InOrder (frames.dropWhile fun f => f.stop < capture.node.stop) rest where
  room c hc := h.room c (List.mem_cons_of_mem capture hc)
  follows := h.follows.of_cons
  follows_open f hf c hc := h.follows_open f (mem_of_mem_dropWhile hf) c (List.mem_cons_of_mem capture hc)

/-- So is what it opens. -/
theorem cons (h : InOrder frames (capture :: rest)) {outer : List Frame}
    (hframe : frame? outer capture = some f) :
    InOrder (f :: frames.dropWhile fun f => f.stop < capture.node.stop) rest := by
  refine ⟨h.dropWhile.room, h.dropWhile.follows, fun g hg c hc => ?_⟩
  obtain ⟨hstart, hstop, -⟩ := frame?_spec hframe
  rcases List.mem_cons.1 hg with rfl | hg
  · rw [hstart, hstop]
    exact List.rel_of_pairwise_cons h.follows hc
  · exact h.dropWhile.follows_open g hg c hc

/-! ## 3. The frames around a scope -/

/-- A frame that is closed by a capture holds neither what the capture opens nor what comes later. -/
theorem mem_dropWhile_of_liesIn (h : InOrder frames (capture :: rest)) (hf : f ∈ frames)
    (hs : ∃ c ∈ capture :: rest, frame? s.outer c = some s.frame) (hin : s.frame.LiesIn f) :
    f ∈ frames.dropWhile fun f => f.stop < capture.node.stop := by
  by_contra hclosed
  obtain ⟨c, hc, hframe⟩ := hs
  obtain ⟨hstart, hstop, -⟩ := frame?_spec hframe
  have hends : f.stop < capture.node.stop := by
    rw [← List.takeWhile_append_dropWhile (p := fun f : Frame => f.stop < capture.node.stop)
      (l := frames), List.mem_append] at hf
    simpa using List.mem_takeWhile_imp (hf.resolve_right hclosed)
  have hfollows : Follows f.start f.stop capture.node.start capture.node.stop :=
    h.follows_open f hf capture List.mem_cons_self
  have hlater : capture.node.start ≤ c.node.start := by
    rcases List.mem_cons.1 hc with rfl | hc
    · exact Nat.le_refl _
    · exact (List.rel_of_pairwise_cons h.follows hc).1
  have hroom : c.node.start < c.node.stop := h.room c hc
  unfold Follows at hfollows
  unfold Frame.LiesIn Frame.Encloses at hin
  omega

/-- **A frame that is open stays open for what it holds.** -/
theorem mem_outer_of_mem_frames (h : InOrder frames captures) (hs : s ∈ openAll frames captures)
    (hf : f ∈ frames) (hin : s.frame.LiesIn f) : f ∈ s.outer := by
  have hopened := exists_capture_of_mem_openAll hs
  fun_induction openAll frames captures with
  | case1 => cases hs
  | case2 frames capture rest outer frame hframe ih =>
    have hkept : f ∈ outer := h.mem_dropWhile_of_liesIn hf hopened hin
    rcases List.mem_cons.1 hs with rfl | hs
    · exact hkept
    · exact ih (h.cons hframe) hs (List.mem_cons_of_mem frame hkept)
        (exists_capture_of_mem_openAll hs)
  | case3 frames capture rest outer hframe ih =>
    exact ih h.dropWhile hs (h.mem_dropWhile_of_liesIn hf hopened hin)
      (exists_capture_of_mem_openAll hs)

/-- A scope is open for what it holds of the scopes after it. -/
theorem pairwise_outer (h : InOrder frames captures) : (openAll frames captures).Pairwise
    fun t s => s.frame.LiesIn t.frame → t.frame ∈ s.outer := by
  fun_induction openAll frames captures with
  | case1 => exact List.Pairwise.nil
  | case2 frames capture rest outer frame hframe ih =>
    have hrest : InOrder (frame :: outer) rest := h.cons hframe
    exact List.pairwise_cons.2 ⟨fun s hs =>
      hrest.mem_outer_of_mem_frames hs List.mem_cons_self, ih hrest⟩
  | case3 frames capture rest outer hframe ih => exact ih h.dropWhile

/-- The scopes themselves follow each other. -/
theorem pairwise_follows (h : InOrder frames captures) : (openAll frames captures).Pairwise
    fun s t => Follows s.frame.start s.frame.stop t.frame.start t.frame.stop :=
  pairwise_frames_openAll (R := Follows) h.follows

theorem start_lt_stop (h : InOrder frames captures) (hs : s ∈ openAll frames captures) :
    s.frame.start < s.frame.stop := by
  obtain ⟨c, hc, hopened⟩ := exists_capture_of_mem_openAll hs
  obtain ⟨hstart, hstop, -⟩ := frame?_spec hopened
  rw [hstart, hstop]
  exact h.room c hc

/-- **Scopes are told apart by their spans.** -/
theorem eq_of_span (h : InOrder frames captures) (hs : s ∈ openAll frames captures)
    (ht : t ∈ openAll frames captures) (hstart : s.frame.start = t.frame.start)
    (hstop : s.frame.stop = t.frame.stop) : s = t := by
  by_contra hne
  have hroom := h.start_lt_stop hs
  have hcases := rel_or_rel_of_pairwise h.pairwise_follows hs ht hne
  unfold Follows at hcases
  omega

/-- **Every other scope that holds a scope is around it.** -/
theorem mem_outer_of_liesIn (h : InOrder frames captures) (hs : s ∈ openAll frames captures)
    (ht : t ∈ openAll frames captures) (hne : t ≠ s) (hin : s.frame.LiesIn t.frame) :
    t.frame ∈ s.outer := by
  rcases rel_or_rel_of_pairwise (h.pairwise_follows.and h.pairwise_outer) ht hs hne with
    ⟨-, hopen⟩ | ⟨hfollows, -⟩
  · exact hopen hin
  -- a scope that comes later cannot hold it
  · refine absurd (h.eq_of_span ht hs ?_ ?_) hne
    all_goals
      have hroom := h.start_lt_stop hs
      unfold Follows at hfollows
      unfold Frame.LiesIn Frame.Encloses at hin
      omega

theorem mem_chain_of_liesIn (h : InOrder frames captures) (hs : s ∈ openAll frames captures)
    (ht : t ∈ openAll frames captures) (hin : s.frame.LiesIn t.frame) : t.frame ∈ s.chain := by
  by_cases hne : t = s
  · exact hne ▸ List.mem_cons_self
  · exact List.mem_cons_of_mem _ (h.mem_outer_of_liesIn hs ht hne hin)

theorem pairwise_chain (h : InOrder [] captures) (hs : s ∈ openAll [] captures) :
    s.chain.Pairwise Frame.LiesIn :=
  pairwise_chain_openAll (h.follows.imp fun hab => hab.1) List.Pairwise.nil
    (fun _ hf => absurd hf List.not_mem_nil) hs

/-- A scope is smaller than every other that holds it. -/
theorem size_lt_of_liesIn (h : InOrder frames captures) (hs : s ∈ openAll frames captures)
    (ht : t ∈ openAll frames captures) (hne : t ≠ s) (hin : s.frame.LiesIn t.frame) :
    s.frame.size < t.frame.size := by
  have hspan : ¬ (t.frame.start = s.frame.start ∧ t.frame.stop = s.frame.stop) :=
    fun ⟨hstart, hstop⟩ => hne (h.eq_of_span ht hs hstart hstop)
  have hroom := h.start_lt_stop hs
  unfold Frame.LiesIn Frame.Encloses at hin
  unfold Frame.size
  omega

end InOrder

section Found

variable (h : InOrder [] (captures.filter opensScope))
include h

/-- **The search for the scope around a node finds the innermost that holds it.** -/
theorem findsInnermost_around (hbetween : ¬ IsBetween (ofCaptures captures) node) :
    FindsInnermost (ofCaptures captures) (fun t => t.frame.Encloses node.start node.stop)
      (around? (ofCaptures captures) node) := by
  have hfollows : (ofCaptures captures).Pairwise
      fun s t => Follows s.frame.start s.frame.stop t.frame.start t.frame.stop := h.pairwise_follows
  rw [around?_eq_find? (hfollows.imp fun hab => hab.1)]
  cases hfound : (ofCaptures captures).reverse.find? fun s =>
      decide (s.frame.Encloses node.start node.stop) with
  | none =>
    intro t ht hin
    exact List.find?_eq_none.1 hfound t (List.mem_reverse.2 ht) (decide_eq_true hin)
  | some s =>
    obtain ⟨hs, after, before, hsplit, hafter⟩ := List.find?_eq_some_iff_append.1 hfound
    have hmem : s ∈ ofCaptures captures := List.mem_reverse.1 (List.mem_of_find?_eq_some hfound)
    have hin : s.frame.Encloses node.start node.stop := of_decide_eq_true hs
    refine ⟨hmem, hin, fun t ht htin hne => ?_⟩
    -- the search goes backwards, so every other scope that holds the node stands before
    have hbefore : t ∈ before := by
      have hmem' : t ∈ after ++ s :: before := hsplit ▸ List.mem_reverse.2 ht
      rcases List.mem_append.1 hmem' with hlate | hmem'
      · exact absurd (decide_eq_true htin) (by simpa using hafter t hlate)
      · exact (List.mem_cons.1 hmem').resolve_left hne
    have hpair := List.pairwise_reverse.2 hfollows
    rw [hsplit, List.pairwise_append, List.pairwise_cons] at hpair
    have hst := hpair.2.1.1 t hbefore
    -- the two do not stand apart, or the node would be between them
    have hinside : ¬ t.frame.stop ≤ s.frame.start := fun hle =>
      hbetween ⟨t, ht, s, hmem, htin, hin, hle⟩
    refine h.size_lt_of_liesIn hmem ht hne ?_
    unfold Follows at hst
    unfold Frame.LiesIn Frame.Encloses
    omega

/-- **A scope belongs to the innermost class that holds it.** -/
theorem exists_nearest (hs : s ∈ ofCaptures captures) :
    ∃ nearest, s.frame.owner = nearest.map (·.frame.name) ∧
      FindsInnermost (ofCaptures captures)
        (fun t => t.frame.isClass = true ∧ s.frame.LiesIn t.frame) nearest := by
  rw [owner_eq_find? hs]
  have hchain := h.pairwise_chain hs
  cases hfound : s.chain.find? (·.isClass) with
  | none =>
    refine ⟨none, rfl, fun t ht ⟨hclass, hin⟩ => ?_⟩
    exact List.find?_eq_none.1 hfound t.frame (h.mem_chain_of_liesIn hs ht hin) hclass
  | some f =>
    have hf := List.mem_of_find?_eq_some hfound
    obtain ⟨t, ht, rfl⟩ :=
      (exists_scope_of_mem_chain_openAll hs hf).resolve_left List.not_mem_nil
    obtain ⟨hclass, inner, outer, hsplit, hinner⟩ := List.find?_eq_some_iff_append.1 hfound
    have hin : s.frame.LiesIn t.frame := by
      rcases List.mem_cons.1 hf with heq | hf
      · exact heq ▸ ⟨Nat.le_refl _, Nat.le_refl _⟩
      · exact (List.pairwise_cons.1 hchain).1 t.frame hf
    refine ⟨some t, rfl, ht, ⟨hclass, hin⟩, fun u hu ⟨huclass, huin⟩ hne => ?_⟩
    refine h.size_lt_of_liesIn ht hu hne ?_
    -- another class around the scope comes after the first one on the way out
    have hmem := h.mem_chain_of_liesIn hs hu huin
    rw [hsplit, List.mem_append] at hmem
    have hmem := hmem.resolve_left fun hmem => absurd huclass (by simpa using hinner u.frame hmem)
    rw [hsplit, List.pairwise_append, List.pairwise_cons] at hchain
    rcases List.mem_cons.1 hmem with heq | hmem
    · exact heq ▸ ⟨Nat.le_refl _, Nat.le_refl _⟩
    · exact hchain.2.1.1 u.frame hmem

end Found

end Scope

end CodeAtlas
