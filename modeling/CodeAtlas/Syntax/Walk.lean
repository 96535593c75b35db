import CodeAtlas.Syntax.Node

/-!
# Walks through a tree

Preorder walks: a node comes before its descendants, and siblings keep their order. One walk stops
at nodes of given kinds, one looks for the first fault, and one keeps for every node the nodes above
it. The first two are loops over a stack of nodes that are still to come.
-/

namespace CodeAtlas.Syntax

/-! ## Descendants -/

mutual

/-- The descendants of a node in preorder. Nodes that satisfy `stop` are listed but not
entered. -/
def Node.descendants (stop : Node → Bool) : Node → List Node
  | .node _ children => descendantsOf stop children

/-- The nodes of a list with their descendants. -/
def descendantsOf (stop : Node → Bool) : List Node → List Node
  | [] => []
  | n :: ns =>
    n :: ((if stop n then [] else n.descendants stop) ++ descendantsOf stop ns)

end

/-! ## A stack of nodes -/

theorem sizeOf_append (ns ms : List Node) : sizeOf (ns ++ ms) + 1 = sizeOf ns + sizeOf ms := by
  induction ns with
  | nil => simp only [List.nil_append, List.nil.sizeOf_spec, Nat.add_comm]
  | cons n ns ih =>
    simp only [List.cons_append, List.cons.sizeOf_spec]
    omega

theorem sizeOf_reverse (ns : List Node) : sizeOf ns.reverse = sizeOf ns := by
  induction ns with
  | nil => rfl
  | cons n ns ih =>
    have hconcat := sizeOf_append ns.reverse [n]
    simp only [List.reverse_cons, List.cons.sizeOf_spec, List.nil.sizeOf_spec] at hconcat ⊢
    omega

/-- The children of a node are smaller together than the node. -/
theorem sizeOf_children_lt (n : Node) : sizeOf n.children < sizeOf n := by
  cases n with
  | node label children =>
    simp only [Node.children, Node.node.sizeOf_spec]
    omega

/-- What is left of a stack without its last node is smaller. -/
theorem sizeOf_pop_lt {stack : Array Node} {current : Node} (h : stack.back? = some current) :
    sizeOf stack.pop.toList < sizeOf stack.toList := by
  obtain ⟨rest, rfl⟩ := Array.back?_eq_some_iff.1 h
  have hstack := sizeOf_append rest.toList [current]
  rw [List.cons.sizeOf_spec, List.nil.sizeOf_spec] at hstack
  rw [Array.pop_push, Array.toList_push]
  omega

/-- So it is when the children of that node take its place. -/
theorem sizeOf_pop_append_lt {stack : Array Node} {current : Node}
    (h : stack.back? = some current) :
    sizeOf (stack.pop ++ current.children.reverse).toList < sizeOf stack.toList := by
  obtain ⟨rest, rfl⟩ := Array.back?_eq_some_iff.1 h
  have hchildren := sizeOf_children_lt current
  have hstack := sizeOf_append rest.toList [current]
  have hnext := sizeOf_append rest.toList current.children.reverse
  rw [List.cons.sizeOf_spec, List.nil.sizeOf_spec] at hstack
  rw [sizeOf_reverse] at hnext
  rw [Array.pop_push, Array.toList_push, Array.toList_appendList]
  omega

/-- Goes on with the nodes of a stack, the last one first. The children of a node are put on the stack
from the last to the first, unless the node is of a kind to stop at. -/
def walkStack (stopAt : List String) (stack : Array Node) : List Node :=
  match _h : stack.back? with
  | none => []
  | some current =>
    current :: walkStack stopAt
      (if stopAt.contains current.kind then stack.pop
        else stack.pop ++ current.children.reverse)
termination_by sizeOf stack.toList
decreasing_by
  split
  · exact sizeOf_pop_lt _h
  · exact sizeOf_pop_append_lt _h

/-- The nodes below a node in preorder. Nodes of the kinds to stop at are listed but not entered. -/
def Node.walk (stopAt : List String) (n : Node) : List Node :=
  walkStack stopAt n.children.reverse.toArray

/-! ## Sites -/

/-- A node together with the nodes above it, the nearest first. -/
structure Site where
  node : Node
  above : List Node

namespace Site

/-- The node above. -/
def parent? (site : Site) : Option Node :=
  site.above.head?

end Site

mutual

/-- A node and its descendants in preorder, each with the nodes above it. -/
def Node.sitesBelow (above : List Node) : Node → List Site
  | .node label children =>
    ⟨.node label children, above⟩ :: sitesOf (.node label children :: above) children

/-- The nodes of a list with their descendants, each with the nodes above it. -/
def sitesOf (above : List Node) : List Node → List Site
  | [] => []
  | n :: ns => n.sitesBelow above ++ sitesOf above ns

end

/-- Every node of a tree in preorder, each with the nodes above it. -/
def Node.sites (root : Node) : List Site :=
  root.sitesBelow []

/-! ## Faults -/

/-- A node covers text that no rule fits, or stands for a token that the text lacks. -/
def Node.isFault (n : Node) : Bool :=
  n.label.isError || n.label.isMissing

/-- Looks for a fault among the nodes of a stack, the last one first, and in the children of those
that are marked as holding one. -/
def faultStack? (stack : Array Node) : Option Node :=
  match _h : stack.back? with
  | none => none
  | some current =>
    if current.isFault then some current
    else
      faultStack? (if current.label.hasError then stack.pop ++ current.children.reverse
        else stack.pop)
termination_by sizeOf stack.toList
decreasing_by
  split
  · exact sizeOf_pop_append_lt _h
  · exact sizeOf_pop_lt _h

/-- The first node in preorder that is an error or missing. Only subtrees marked as holding one
are searched. -/
def Node.firstFault? (n : Node) : Option Node :=
  faultStack? #[n]

end CodeAtlas.Syntax
