import CodeAtlas.Syntax.Walk

/-!
# Captures

A query picks nodes anywhere in a tree and tags each. What runs queries is a library of its own,
and in which order and how often it tells of a node is up to it: captures are read in source order,
by first byte and of two that start together the longer first, and a node is read once under each
tag (`Capture.inOrder`).
-/

namespace CodeAtlas.Syntax

/-- A node that a query picked, with the tag it picked it under. -/
structure Capture (α : Type) where
  tag : α
  site : Site

namespace Capture

variable {α : Type}

def node (c : Capture α) : Node := c.site.node

/-- Source order: earlier start first, then later end. -/
def before (a b : Capture α) : Bool :=
  a.node.start < b.node.start || (a.node.start == b.node.start && b.node.stop ≤ a.node.stop)

/-- Captures of one node under one tag. Nodes of one kind with one span count as one. -/
def sameAs [BEq α] (a b : Capture α) : Bool :=
  a.tag == b.tag && a.node.start == b.node.start && a.node.stop == b.node.stop &&
    a.node.kind == b.node.kind

/-- Some captures as they are read, whatever order they were found in. -/
def inOrder [BEq α] (found : List (Capture α)) : List (Capture α) :=
  (found.eraseDupsBy sameAs).mergeSort before

end Capture

/-- The nodes that a query picks, in preorder. -/
def Node.found {α : Type} (root : Node) (query : Site → Option α) : List (Capture α) :=
  root.sites.filterMap fun site => (query site).map fun tag => ⟨tag, site⟩

/-- The captures of a query. -/
def Node.captures {α : Type} [BEq α] (root : Node) (query : Site → Option α) : List (Capture α) :=
  Capture.inOrder (root.found query)

/-- A query that picks the named nodes of some kinds under one tag each. -/
def byKind {α : Type} (table : List (α × List String)) (site : Site) : Option α :=
  if site.node.label.isNamed then
    (table.find? fun row => row.2.contains site.node.kind).map (·.1)
  else none

end CodeAtlas.Syntax
