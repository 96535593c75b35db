import CodeAtlas.Proofs.Syntax.Span

/-!
# Nodes above

A site knows the nodes above it. They are sites of the tree themselves
(`Node.mem_sites_of_mem_ancestors`), and of two sites either one is above the other or their nodes
stand apart, if the tree is laid out (`Node.ancestor_or_apart`). So any two nodes are nested or stand
apart (`Node.nested_or_apart`). To lie inside is not to be below, though: a node that covers nothing, at
the border between two siblings, lies inside both.
-/

namespace CodeAtlas.Syntax

/-! ## 1. Paths -/

namespace Site

variable {s t : Site}

/-- A node and the nodes above it, from the inside out. -/
def path (site : Site) : List Node :=
  site.node :: site.above

/-- The sites of some nodes, each of which has the later ones above it. -/
def ofPath : List Node → List Site
  | [] => []
  | n :: above => ⟨n, above⟩ :: ofPath above

/-- The sites of the nodes above, from the inside out. -/
def ancestors (site : Site) : List Site :=
  ofPath site.above

theorem mem_ofPath {path : List Node} : s ∈ ofPath path ↔ s.path <:+ path := by
  induction path with
  | nil =>
    exact iff_of_false List.not_mem_nil fun h => List.cons_ne_nil _ _ (List.suffix_nil.1 h)
  | cons n above ih =>
    rw [ofPath, List.mem_cons, List.suffix_cons_iff, ih]
    refine or_congr_left ⟨fun h => h ▸ rfl, fun h => ?_⟩
    obtain ⟨hnode, habove⟩ := List.cons.inj h
    exact hnode ▸ habove ▸ rfl

/-- A path that ends like another is that of the same site or of one above it. -/
theorem path_suffix_iff : s.path <:+ t.path ↔ s = t ∨ s ∈ t.ancestors := by
  rw [← mem_ofPath, path, ofPath, List.mem_cons]
  rfl

/-- **The later of two nodes above a node is above the other.** -/
theorem pairwise_ancestors (site : Site) :
    site.ancestors.Pairwise fun a b => b ∈ a.ancestors := by
  unfold ancestors
  induction site.above with
  | nil => exact List.Pairwise.nil
  | cons n above ih => exact List.pairwise_cons.2 ⟨fun s hs => hs, ih⟩

end Site

/-! ## 2. Trees -/

namespace Node

variable {root : Node} {s t : Site}

/-- The path of a site below a node ends like that of the node. -/
theorem suffix_of_mem_sitesBelow : ∀ (n : Node) (above : List Node),
    t ∈ n.sitesBelow above → n :: above <:+ t.path
  | node label children, above, h => by
    rcases mem_sitesBelow.1 h with rfl | ⟨c, hc, hbelow⟩
    · exact List.suffix_refl _
    · exact (List.suffix_cons c _).trans (suffix_of_mem_sitesBelow c _ hbelow)
termination_by n => n
decreasing_by exact sizeOf_lt_of_mem_children hc

/-- What lies on the way to a site is a site, and has it below. -/
theorem mem_sitesBelow_of_suffix : ∀ (n : Node) (above : List Node),
    t ∈ n.sitesBelow above → n :: above <:+ s.path → s.path <:+ t.path →
      s ∈ n.sitesBelow above ∧ t ∈ s.node.sitesBelow s.above
  | node label children, above, ht, hbelow, hst => by
    rcases List.suffix_cons_iff.1 hbelow with heq | hbelow
    -- it is the node itself
    · obtain ⟨hnode, habove⟩ := List.cons.inj heq
      refine ⟨mem_sitesBelow.2 (Or.inl ?_), ?_⟩
      · exact hnode ▸ habove ▸ rfl
      · exact hnode ▸ habove ▸ ht
    rcases mem_sitesBelow.1 ht with rfl | ⟨c, hc, htc⟩
    -- a site below the node cannot have it as the end of a longer path
    · have hlong := hbelow.length_le
      have hshort := hst.length_le
      simp only [Site.path, List.length_cons] at hlong hshort
      omega
    · have hc' : c :: node label children :: above <:+ s.path := by
        rcases List.suffix_or_suffix_of_suffix (suffix_of_mem_sitesBelow c _ htc) hst with h | h
        · exact h
        · rcases List.suffix_cons_iff.1 h with heq | h
          · exact heq ▸ List.suffix_refl _
          · have hlong := hbelow.length_le
            have hshort := h.length_le
            simp only [Site.path, List.length_cons] at hlong hshort
            omega
      obtain ⟨hs, hbelow⟩ := mem_sitesBelow_of_suffix c _ htc hc' hst
      exact ⟨mem_sitesBelow.2 (Or.inr ⟨c, hc, hs⟩), hbelow⟩
termination_by n => n
decreasing_by exact sizeOf_lt_of_mem_children hc

theorem mem_sites_of_mem_ancestors (ht : t ∈ root.sites) (hs : s ∈ t.ancestors) :
    s ∈ root.sites ∧ t ∈ s.node.sitesBelow s.above := by
  have hst : s.path <:+ t.path := Site.path_suffix_iff.2 (Or.inr hs)
  refine mem_sitesBelow_of_suffix root [] ht ?_ hst
  -- the path of every site ends with the root
  rcases List.suffix_or_suffix_of_suffix (suffix_of_mem_sitesBelow root [] ht) hst with h | h
  · exact h
  · rcases List.suffix_cons_iff.1 h with heq | h
    · exact heq ▸ List.suffix_refl _
    · exact absurd (List.suffix_nil.1 h) (List.cons_ne_nil _ _)

/-- What is below a site of a tree is a site of the tree. -/
theorem mem_sitesBelow_trans : ∀ (n : Node) (above : List Node), s ∈ n.sitesBelow above →
    t ∈ s.node.sitesBelow s.above → t ∈ n.sitesBelow above
  | node label children, above, hs, ht => by
    rcases mem_sitesBelow.1 hs with rfl | ⟨c, hc, hsc⟩
    · exact ht
    · exact mem_sitesBelow.2 (Or.inr ⟨c, hc, mem_sitesBelow_trans c _ hsc ht⟩)
termination_by n => n
decreasing_by exact sizeOf_lt_of_mem_children hc

/-- **A node lies inside those above it.** -/
theorem liesIn_of_mem_ancestors (h : root.IsLaidOut) (ht : t ∈ root.sites)
    (hs : s ∈ t.ancestors) : t.node.LiesIn s.node := by
  obtain ⟨hsite, hbelow⟩ := mem_sites_of_mem_ancestors ht hs
  exact liesIn_of_mem_sitesBelow s.node s.above
    (fun u hu => (h u (mem_sitesBelow_trans root [] hsite hu)).1) t hbelow

theorem liesIn_of_path_suffix (h : root.IsLaidOut) (ht : t ∈ root.sites)
    (hst : s.path <:+ t.path) : t.node.LiesIn s.node := by
  rcases Site.path_suffix_iff.1 hst with rfl | hs
  · exact .refl _
  · exact liesIn_of_mem_ancestors h ht hs

theorem ancestor_or_apart_of_mem_sitesBelow : ∀ (n : Node) (above : List Node),
    (∀ site ∈ n.sitesBelow above,
      (∀ c ∈ site.node.children, c.LiesIn site.node) ∧ site.node.children.Pairwise IsApart) →
      ∀ s ∈ n.sitesBelow above, ∀ t ∈ n.sitesBelow above,
        s.path <:+ t.path ∨ t.path <:+ s.path ∨ s.node.IsApart t.node
  | node label children, above, h, s, hs, t, ht => by
    have hpath := fun (u : Site) (hu : u ∈ (node label children).sitesBelow above) =>
      suffix_of_mem_sitesBelow (node label children) above hu
    rcases mem_sitesBelow.1 hs with rfl | ⟨c, hc, hsc⟩
    · exact Or.inl (hpath t ht)
    rcases mem_sitesBelow.1 ht with rfl | ⟨d, hd, htd⟩
    · exact Or.inr (Or.inl (hpath s hs))
    have hsub : ∀ e ∈ children, ∀ site ∈ e.sitesBelow (node label children :: above),
        (∀ c ∈ site.node.children, c.LiesIn site.node) ∧ site.node.children.Pairwise IsApart :=
      fun e he site hsite => h site (mem_sitesBelow.2 (Or.inr ⟨e, he, hsite⟩))
    -- below one child by induction, below two children by how siblings stand
    by_cases hcd : c = d
    · subst hcd
      exact ancestor_or_apart_of_mem_sitesBelow c _ (hsub c hc) s hsc t htd
    · have hsiblings := (h ⟨node label children, above⟩ (mem_sitesBelow.2 (Or.inl rfl))).2
      have hapart : c.IsApart d := hsiblings.forall hc hd hcd
      exact Or.inr (Or.inr (hapart.of_liesIn
        (liesIn_of_mem_sitesBelow c _ (fun site hsite => (hsub c hc site hsite).1) s hsc)
        (liesIn_of_mem_sitesBelow d _ (fun site hsite => (hsub d hd site hsite).1) t htd)))
termination_by n => n
decreasing_by exact sizeOf_lt_of_mem_children hc

/-- **Of two nodes of a tree one is above the other, or they stand apart.** -/
theorem ancestor_or_apart (h : root.IsLaidOut) (hs : s ∈ root.sites) (ht : t ∈ root.sites) :
    s.path <:+ t.path ∨ t.path <:+ s.path ∨ s.node.IsApart t.node :=
  ancestor_or_apart_of_mem_sitesBelow root [] h s hs t ht

/-- **Two nodes of a tree are nested or stand apart.** -/
theorem nested_or_apart (h : root.IsLaidOut) (hs : s ∈ root.sites) (ht : t ∈ root.sites) :
    s.node.LiesIn t.node ∨ t.node.LiesIn s.node ∨ s.node.IsApart t.node := by
  rcases ancestor_or_apart h hs ht with hst | hts | hapart
  · exact Or.inr (Or.inl (liesIn_of_path_suffix h ht hst))
  · exact Or.inl (liesIn_of_path_suffix h hs hts)
  · exact Or.inr (Or.inr hapart)

/-- **A node that takes room stands inside an earlier one or after it**, where the earlier of two is
the one that starts first or else is the larger. -/
theorem liesIn_or_le (h : root.IsLaidOut) (hs : s ∈ root.sites) (ht : t ∈ root.sites)
    (hroom : t.node.TakesRoom)
    (hbefore : s.node.start < t.node.start ∨
      s.node.start = t.node.start ∧ t.node.stop ≤ s.node.stop) :
    t.node.LiesIn s.node ∨ s.node.stop ≤ t.node.start := by
  have hstop : t.node.start < t.node.stop := hroom
  have hcases := nested_or_apart h hs ht
  unfold LiesIn IsApart at *
  omega

end Node

end CodeAtlas.Syntax
