import CodeAtlas.Syntax.Walk
import Mathlib.Data.List.Infix

/-!
# Walks with a stack

What a stack of nodes gives is what the recursion gives that goes through the nodes from the end of
the stack to its start (`walkStack_eq`): children are put on it in reverse, so they come off in order.
The stack never mixes two nodes, since what is below a node is on top of all that was there before.

The recursion in turn is the preorder of all nodes without those that stand behind a node to stop at
(`Node.walk_eq_openSites`). A node of a kind to stop at is itself not behind it.
-/

namespace CodeAtlas.Syntax

variable {stopAt : List String} {inner : List Node}

/-! ## 1. The recursion -/

theorem descendantsOf_append (stop : Node → Bool) (ns ms : List Node) :
    descendantsOf stop (ns ++ ms) = descendantsOf stop ns ++ descendantsOf stop ms := by
  induction ns with
  | nil => rfl
  | cons n ns ih => rw [List.cons_append, descendantsOf, descendantsOf, ih, List.cons_append,
      List.append_assoc]

theorem Node.descendants_eq (stop : Node → Bool) (n : Node) :
    n.descendants stop = descendantsOf stop n.children := by
  cases n with
  | node label children => rfl

/-- **A stack gives what the recursion gives on its nodes from the last to the first.** -/
theorem walkStack_eq (stopAt : List String) (stack : Array Node) :
    walkStack stopAt stack
      = descendantsOf (fun m => stopAt.contains m.kind) stack.toList.reverse := by
  fun_induction walkStack stopAt stack with
  | case1 stack hnone =>
    rw [Array.back?_eq_none_iff.1 hnone]
    rfl
  | case2 stack current hcurrent ih =>
    obtain ⟨rest, rfl⟩ := Array.back?_eq_some_iff.1 hcurrent
    rw [Array.pop_push, dite_eq_ite] at ih
    rw [Array.pop_push, ih, Array.toList_push, List.reverse_append, List.reverse_singleton,
      List.singleton_append, descendantsOf]
    by_cases hstop : stopAt.contains current.kind = true
    · rw [if_pos hstop, if_pos hstop, List.nil_append]
    · rw [if_neg hstop, if_neg hstop, Array.toList_appendList, List.reverse_append,
        List.reverse_reverse, descendantsOf_append, Node.descendants_eq]

/-- **The walk with a stack is the recursive one.** -/
theorem Node.walk_eq_descendants (stopAt : List String) (n : Node) :
    n.walk stopAt = n.descendants fun m => stopAt.contains m.kind := by
  rw [walk, walkStack_eq, List.toList_toArray, List.reverse_reverse, descendants_eq]

theorem Node.walk_nil (n : Node) : n.walk [] = n.descendants fun _ => false :=
  n.walk_eq_descendants []

/-! ## 2. The search for a fault -/

theorem faultStack?_empty : faultStack? #[] = none := by
  rw [faultStack?]
  rfl

/-- **One step of the search**: the last tree is taken off the stack, and if it is no fault but marked
as holding one, its children take its place. -/
theorem faultStack?_push (stack : Array Node) (n : Node) :
    faultStack? (stack.push n) =
      if n.isFault = true then some n
      else faultStack? (if n.label.hasError then stack ++ n.children.reverse else stack) := by
  rw [faultStack?]
  split
  · rename_i hnone
    rw [Array.back?_push] at hnone
    cases hnone
  · rename_i current hcurrent
    rw [Array.back?_push] at hcurrent
    cases hcurrent
    rw [Array.pop_push]

/-! ## 3. Sites that a walk comes to -/

/-- Whether no node strictly between the root of a tree and a site is of a kind to stop at. The root is
the last of the nodes above. -/
def Site.isOpen (stopAt : List String) (site : Site) : Bool :=
  site.above.dropLast.all fun m => !stopAt.contains m.kind

/-- **The sites properly below a node that no node to stop at shuts off**, in preorder. -/
def Node.openSites (stopAt : List String) (root : Node) : List Site :=
  root.sites.tail.filter (Site.isOpen stopAt)

theorem Node.sites_eq (root : Node) : root.sites = ⟨root, []⟩ :: sitesOf [root] root.children := by
  cases root with
  | node label children => rfl

theorem Site.isOpen_iff {site : Site} :
    site.isOpen stopAt = true ↔ ∀ m ∈ site.above.dropLast, m.kind ∉ stopAt := by
  simp [isOpen]

/-- What stands above some nodes stands above all that is below them. -/
theorem Node.above_suffix_of_mem_sitesOf {site : Site} : ∀ (above ns : List Node),
    site ∈ sitesOf above ns → above <:+ site.above
  | _, [], h => absurd h List.not_mem_nil
  | above, .node label children :: ns, h => by
    rw [sitesOf, Node.sitesBelow, List.cons_append, List.mem_cons, List.mem_append] at h
    rcases h with rfl | hbelow | hrest
    · exact List.suffix_refl above
    · exact (List.suffix_cons _ above).trans (above_suffix_of_mem_sitesOf _ children hbelow)
    · exact above_suffix_of_mem_sitesOf above ns hrest

/-- Behind a node to stop at nothing is open. -/
theorem filter_isOpen_of_mem (root : Node) {stopped : Node} (hmem : stopped ∈ inner)
    (hkind : stopped.kind ∈ stopAt) (ns : List Node) :
    (sitesOf (inner ++ [root]) ns).filter (Site.isOpen stopAt) = [] := by
  rw [List.filter_eq_nil_iff]
  intro site hsite hopen
  obtain ⟨lower, hlower⟩ := Node.above_suffix_of_mem_sitesOf _ ns hsite
  have hdropLast : site.above.dropLast = lower ++ inner := by
    rw [← hlower, ← List.append_assoc, List.dropLast_concat]
  rw [Site.isOpen_iff, hdropLast] at hopen
  exact hopen stopped (List.mem_append_right lower hmem) hkind

/-- **What is open below some nodes is what the recursion comes to**, as long as no node above them is
one to stop at. -/
theorem map_node_filter_isOpen (stopAt : List String) (root : Node) : ∀ inner ns : List Node,
    (∀ m ∈ inner, m.kind ∉ stopAt) →
      ((sitesOf (inner ++ [root]) ns).filter (Site.isOpen stopAt)).map Site.node
        = descendantsOf (fun m => stopAt.contains m.kind) ns
  | _, [], _ => rfl
  | inner, .node label children :: ns, hinner => by
    have hopen : Site.isOpen stopAt ⟨.node label children, inner ++ [root]⟩ = true := by
      rw [Site.isOpen_iff, List.dropLast_concat]
      exact hinner
    have hrest := map_node_filter_isOpen stopAt root inner ns hinner
    rw [sitesOf, Node.sitesBelow, List.cons_append, List.filter_cons_of_pos hopen,
      List.filter_append, List.map_cons, List.map_append, hrest, descendantsOf,
      Node.descendants_eq]
    -- below the first node all is open or nothing, as the node is not to stop at or is
    by_cases hstop : (Node.node label children).kind ∈ stopAt
    · have hself : Node.node label children ∈ Node.node label children :: inner :=
        List.mem_cons_self
      have hnone := filter_isOpen_of_mem root hself hstop children
      rw [List.cons_append] at hnone
      rw [hnone, if_pos (List.contains_iff_mem.2 hstop), List.map_nil]
    · have hbelow := map_node_filter_isOpen stopAt root (.node label children :: inner) children
        (List.forall_mem_cons.2 ⟨hstop, hinner⟩)
      rw [List.cons_append] at hbelow
      rw [hbelow, if_neg (mt List.contains_iff_mem.1 hstop)]
      rfl

/-- **The walk comes to all that is open, in preorder.** -/
theorem Node.walk_eq_openSites (stopAt : List String) (n : Node) :
    n.walk stopAt = (n.openSites stopAt).map Site.node := by
  have hopen := map_node_filter_isOpen stopAt n [] n.children fun m hm => absurd hm List.not_mem_nil
  rw [walk_eq_descendants, descendants_eq, openSites, sites_eq, List.tail_cons, ← hopen]
  rfl

end CodeAtlas.Syntax
