import CodeAtlas.Syntax.Walk
import Mathlib.Data.List.Pairwise

/-!
# Spans that nest like the tree

A grammar engine puts every node inside its parent and lets no two siblings cover the same byte
(`Node.IsLaidOut`). So whatever is below a node lies inside it.

The engine counts lines in the text that it reads (`Node.HasLinesOf`), so a node that starts later
does not stand on an earlier line.
-/

namespace CodeAtlas.Syntax

namespace Node

variable {a b c n root : Node} {site : Site}

/-! ## 1. Two spans -/

/-- A node covers at least one byte. -/
def TakesRoom (n : Node) : Prop :=
  n.start < n.stop

/-- A node lies inside another, or covers the same. -/
def LiesIn (a b : Node) : Prop :=
  b.start ≤ a.start ∧ a.stop ≤ b.stop

/-- No byte lies in both of two nodes. -/
def IsApart (a b : Node) : Prop :=
  min a.stop b.stop ≤ max a.start b.start

instance (n : Node) : Decidable n.TakesRoom :=
  inferInstanceAs (Decidable (_ < _))

instance (a b : Node) : Decidable (a.LiesIn b) :=
  inferInstanceAs (Decidable (_ ∧ _))

instance (a b : Node) : Decidable (a.IsApart b) :=
  inferInstanceAs (Decidable (_ ≤ _))

theorem LiesIn.refl (n : Node) : n.LiesIn n :=
  ⟨Nat.le_refl _, Nat.le_refl _⟩

theorem LiesIn.trans (hab : a.LiesIn b) (hbc : b.LiesIn c) : a.LiesIn c :=
  ⟨Nat.le_trans hbc.1 hab.1, Nat.le_trans hab.2 hbc.2⟩

theorem IsApart.symm (h : a.IsApart b) : b.IsApart a := by
  unfold IsApart at *
  omega

instance : Std.Symm IsApart :=
  ⟨fun _ _ => IsApart.symm⟩

/-- What lies inside nodes that stand apart stands apart. -/
theorem IsApart.of_liesIn {a' b' : Node} (h : a.IsApart b) (ha : a'.LiesIn a) (hb : b'.LiesIn b) :
    a'.IsApart b' := by
  unfold IsApart LiesIn at *
  omega

/-! ## 2. Trees -/

/-- **A tree is laid out**: children lie inside their parent, and siblings stand apart. -/
def IsLaidOut (root : Node) : Prop :=
  ∀ site ∈ root.sites,
    (∀ c ∈ site.node.children, c.LiesIn site.node) ∧ site.node.children.Pairwise IsApart

instance (root : Node) : Decidable root.IsLaidOut :=
  inferInstanceAs (Decidable (∀ site ∈ root.sites, _))

theorem mem_sitesOf {above ns : List Node} :
    site ∈ sitesOf above ns ↔ ∃ n ∈ ns, site ∈ n.sitesBelow above := by
  induction ns with
  | nil => simp [sitesOf]
  | cons n ns ih => simp [sitesOf, ih]

/-- The sites of a node are its own and those of its children. -/
theorem mem_sitesBelow {label : Label} {children above : List Node} :
    site ∈ (node label children).sitesBelow above ↔
      site = ⟨node label children, above⟩ ∨
        ∃ c ∈ children, site ∈ c.sitesBelow (node label children :: above) := by
  rw [sitesBelow, List.mem_cons, mem_sitesOf]

/-- A part of a tree is laid out like the whole. -/
theorem liesIn_of_mem_sitesBelow : ∀ (n : Node) (above : List Node),
    (∀ site ∈ n.sitesBelow above, ∀ c ∈ site.node.children, c.LiesIn site.node) →
      ∀ site ∈ n.sitesBelow above, site.node.LiesIn n
  | node label children, above, h, site, hsite => by
    rcases mem_sitesBelow.1 hsite with rfl | ⟨c, hc, hbelow⟩
    · exact .refl _
    · have hsub : ∀ s ∈ c.sitesBelow (node label children :: above), ∀ d ∈ s.node.children,
          d.LiesIn s.node := fun s hs => h s (mem_sitesBelow.2 (Or.inr ⟨c, hc, hs⟩))
      have hchild : c.LiesIn (node label children) :=
        h ⟨node label children, above⟩ (mem_sitesBelow.2 (Or.inl rfl)) c hc
      exact (liesIn_of_mem_sitesBelow c _ hsub site hbelow).trans hchild
termination_by n => n
decreasing_by exact sizeOf_lt_of_mem_children hc

end Node

/-! ## 3. Lines -/

/-- Line feeds are never taken back. -/
theorem Source.lineAt_mono (source : Source) {a b : Nat} (h : a ≤ b) :
    source.lineAt a ≤ source.lineAt b :=
  Nat.add_le_add_right ((List.take_prefix_take_left h).sublist.count_le 10) 1

/-- **Every node of a tree stands on the line that its first byte has in a source.** -/
def Node.HasLinesOf (root : Node) (source : Source) : Prop :=
  ∀ site ∈ root.sites, site.node.line = source.lineAt site.node.start

instance (root : Node) (source : Source) : Decidable (root.HasLinesOf source) :=
  inferInstanceAs (Decidable (∀ site ∈ root.sites, _))

/-- What starts later does not stand on an earlier line. -/
theorem Node.HasLinesOf.line_le {root : Node} {source : Source} {s t : Site}
    (h : root.HasLinesOf source) (hs : s ∈ root.sites) (ht : t ∈ root.sites)
    (hle : s.node.start ≤ t.node.start) : s.node.line ≤ t.node.line := by
  rw [h s hs, h t ht]
  exact source.lineAt_mono hle

end CodeAtlas.Syntax
