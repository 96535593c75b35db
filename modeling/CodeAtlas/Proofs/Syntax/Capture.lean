import CodeAtlas.Proofs.Dedup
import CodeAtlas.Proofs.Sorted
import CodeAtlas.Syntax.Capture
import Mathlib.Data.List.Pairwise
import Mathlib.Data.List.Sort

/-!
# Captures in source order

In whatever order captures were found, they are read in source order (`Capture.pairwise_inOrder`),
each node once under each tag (`Capture.nodup_key_inOrder`). Where the nodes of a tree are picked in that order anyway, as in preorder they are unless spans overlap,
sorting leaves them as they are (`Node.captures_eq_picked`).

Of captures with one key only the first is kept. Two queries that differ on some keys alone are read
alike if nothing is read from captures with these keys (`Node.filterMap_captures_congr`).
-/

namespace CodeAtlas.Syntax

/-! ## 1. Source order -/

namespace Capture

variable {α : Type} {a b : Capture α}

theorem before_iff : a.before b = true ↔
    a.node.start < b.node.start ∨ a.node.start = b.node.start ∧ b.node.stop ≤ a.node.stop := by
  simp only [before, Bool.or_eq_true, Bool.and_eq_true, decide_eq_true_eq, beq_iff_eq]

theorem before_trans (a b c : Capture α) (hab : a.before b = true) (hbc : b.before c = true) :
    a.before c = true := by
  rw [before_iff] at *
  omega

theorem before_total (a b : Capture α) : (a.before b || b.before a) = true := by
  rw [Bool.or_eq_true, before_iff, before_iff]
  omega

/-- **Captures are read in source order.** -/
theorem pairwise_before_inOrder [BEq α] (found : List (Capture α)) :
    (inOrder found).Pairwise fun a b => a.before b = true :=
  List.pairwise_mergeSort before_trans before_total _

/-- None starts before one that comes earlier. -/
theorem pairwise_inOrder [BEq α] (found : List (Capture α)) :
    (inOrder found).Pairwise fun a b => a.node.start ≤ b.node.start := by
  refine (pairwise_before_inOrder found).imp fun {a b} hab => ?_
  rw [before_iff] at hab
  omega

end Capture

/-- The nodes of a tree that a query picks, each once, in preorder. -/
def Node.picked {α : Type} [BEq α] (root : Node) (query : Site → Option α) : List (Capture α) :=
  (root.found query).eraseDupsBy Capture.sameAs

theorem Node.captures_eq_picked {α : Type} [BEq α] {root : Node} {query : Site → Option α}
    (h : (root.picked query).Pairwise fun a b => a.before b = true) :
    root.captures query = root.picked query :=
  List.mergeSort_of_pairwise h

namespace Capture

variable {α : Type}

/-- What two captures of one node under one tag have in common. -/
def key (c : Capture α) : α × Nat × Nat × String :=
  (c.tag, c.node.start, c.node.stop, c.node.kind)

theorem sameAs_eq [BEq α] (a b : Capture α) : a.sameAs b = (a.key == b.key) := by
  rw [sameAs, Bool.and_assoc, Bool.and_assoc]
  rfl

theorem inOrder_eq [BEq α] (found : List (Capture α)) :
    inOrder found = (Traversal.firstByKey key found).mergeSort before := by
  have hsame : (sameAs : Capture α → Capture α → Bool) = fun a b => a.key == b.key :=
    funext fun a => funext fun b => sameAs_eq a b
  rw [inOrder, hsame]
  rfl

theorem mem_of_mem_inOrder [BEq α] {found : List (Capture α)} {c : Capture α}
    (h : c ∈ inOrder found) : c ∈ found := by
  rw [inOrder_eq, List.mem_mergeSort] at h
  exact Traversal.mem_of_mem_firstByKey h

/-- **A node is read once under each tag.** -/
theorem nodup_key_inOrder [BEq α] [LawfulBEq α] (found : List (Capture α)) :
    ((inOrder found).map key).Nodup := by
  rw [inOrder_eq, ((List.mergeSort_perm _ _).map key).nodup_iff]
  exact Traversal.nodup_keys_firstByKey key _

end Capture

namespace Node

variable {α : Type} [BEq α]

theorem captures_eq (root : Node) (query : Site → Option α) :
    root.captures query
      = (Traversal.firstByKey Capture.key (root.found query)).mergeSort Capture.before :=
  Capture.inOrder_eq _

/-- Where no two of the nodes that a query picks have one key, all of them are captured. -/
theorem captures_eq_mergeSort [LawfulBEq α] {root : Node} {query : Site → Option α}
    (h : ((root.found query).map Capture.key).Nodup) :
    root.captures query = (root.found query).mergeSort Capture.before := by
  rw [captures_eq, Traversal.firstByKey_eq_self h]

omit [BEq α] in
theorem mem_found {root : Node} {query : Site → Option α} {c : Capture α} :
    c ∈ root.found query ↔ c.site ∈ root.sites ∧ query c.site = some c.tag := by
  obtain ⟨tag, site⟩ := c
  simp only [found, List.mem_filterMap, Option.map_eq_some_iff]
  constructor
  · rintro ⟨s, hs, t, ht, heq⟩
    cases heq
    exact ⟨hs, ht⟩
  · rintro ⟨hs, ht⟩
    exact ⟨site, hs, tag, ht, rfl⟩

/-- Every capture is of a site that the query picks. -/
theorem of_mem_captures {root : Node} {query : Site → Option α} {c : Capture α}
    (h : c ∈ root.captures query) : c.site ∈ root.sites ∧ query c.site = some c.tag :=
  mem_found.1 (Capture.mem_of_mem_inOrder h)

/-- What a query says of other sites makes no difference. -/
theorem captures_congr {root : Node} {q r : Site → Option α}
    (h : ∀ site ∈ root.sites, q site = r site) : root.captures q = root.captures r := by
  have hfound : root.found q = root.found r :=
    List.filterMap_congr fun site hsite => by rw [h site hsite]
  rw [captures_eq, captures_eq, hfound]

section Restriction

variable {root : Node} {q r : Site → Option α} {p : Site → Bool}

omit [BEq α] in
theorem filter_found :
    (root.found q).filter (fun c => p c.site)
      = root.found fun site => if p site then q site else none := by
  rw [found, found, List.filter_filterMap]
  refine List.filterMap_congr fun site _ => ?_
  cases q site with
  | none => rw [ite_self, Option.map_none, Option.filter_none]
  | some tag =>
    rw [Option.map_some, Option.filter_some]
    cases p site with
    | true => rfl
    | false => rfl

/-- A condition on the kind and the span of nodes, which a capture has in common with those it can
take the place of, can be put on the query. -/
theorem filter_captures
    (hp : ∀ a b : Site, a.node.start = b.node.start → a.node.stop = b.node.stop →
      a.node.kind = b.node.kind → p a = p b) :
    (root.captures q).filter (fun c => p c.site)
      = root.captures fun site => if p site then q site else none := by
  have hkey : ∀ a b : Capture α, (a.key == b.key) = true → p a.site = p b.site := by
    intro a b h
    rw [← Capture.sameAs_eq, Capture.sameAs, Bool.and_eq_true, Bool.and_eq_true,
      Bool.and_eq_true] at h
    exact hp a.site b.site (eq_of_beq h.1.1.2) (eq_of_beq h.1.2) (eq_of_beq h.2)
  rw [captures_eq, Sorted.filter_mergeSort Capture.before_trans Capture.before_total,
    Traversal.filter_firstByKey Capture.key hkey, filter_found, ← captures_eq]

/-- Captures from which nothing is read can be left out. -/
theorem filterMap_captures {β : Type} {read : Capture α → Option β}
    (h : ∀ site ∈ root.sites, p site = false → ∀ tag, q site = some tag →
      read ⟨tag, site⟩ = none) :
    ((root.captures q).filter fun c => p c.site).filterMap read
      = (root.captures q).filterMap read := by
  rw [List.filterMap_filter]
  refine List.filterMap_congr fun c hc => ?_
  obtain ⟨hsite, hpicked⟩ := of_mem_captures hc
  cases hholds : p c.site with
  | true => rfl
  | false => exact (h c.site hsite hholds c.tag hpicked).symm

/-- **Two queries are read alike** if they agree where such a condition holds and nothing is read from
what they pick elsewhere. -/
theorem filterMap_captures_congr {β : Type} {read : Capture α → Option β}
    (hp : ∀ a b : Site, a.node.start = b.node.start → a.node.stop = b.node.stop →
      a.node.kind = b.node.kind → p a = p b)
    (hsame : ∀ site ∈ root.sites, p site = true → q site = r site)
    (hq : ∀ site ∈ root.sites, p site = false → ∀ tag, q site = some tag →
      read ⟨tag, site⟩ = none)
    (hr : ∀ site ∈ root.sites, p site = false → ∀ tag, r site = some tag →
      read ⟨tag, site⟩ = none) :
    (root.captures q).filterMap read = (root.captures r).filterMap read := by
  -- under the condition the two are one query
  have hrestricted : root.captures (fun site => if p site then q site else none)
      = root.captures fun site => if p site then r site else none := by
    refine captures_congr fun site hsite => ?_
    split
    · rename_i hholds
      exact hsame site hsite hholds
    · rfl
  rw [← filterMap_captures hq, ← filterMap_captures hr, filter_captures hp, filter_captures hp,
    hrestricted]

end Restriction

end Node

/-! ## 3. Nodes without faults -/

namespace Source

/-- A node for a rule of the grammar. -/
def rule (source : Source) (id : Nat) (kind : String) (field : Option String) (start stop : Nat)
    (children : List Node) : Node :=
  source.node id kind field true false false false start stop children

/-- A node for a keyword or a sign, whose kind is its text. -/
def token (source : Source) (id : Nat) (kind : String) (start stop : Nat) : Node :=
  source.node id kind none false false false false start stop []

end Source

end CodeAtlas.Syntax
