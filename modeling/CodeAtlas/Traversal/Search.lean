import CodeAtlas.Traversal.Graph
import CodeAtlas.Traversal.Level
import CodeAtlas.Traversal.Mode

/-!
# Searching the graph

A search visits the files around an entry in one direction. Every file is visited in the fewest
hops that lead to it, and from a file that cannot be loaded the search does not go on. The visits
of both directions together give every file its place: the fewer hops count, and forward where
both directions need as many.
-/

namespace CodeAtlas.Traversal

/-- A file that a search has reached, and in how many hops. -/
structure Visit where
  path : String
  hop : Nat
  deriving DecidableEq, Repr, Inhabited

/-- The visits of a search whose steps are given. -/
def search (step : String → List String) (depth : Nat) (entry : String) : List Visit :=
  (visits step depth entry).map fun (path, hop) => ⟨path, hop⟩

namespace ImportGraph

/-- The visits of a search for the files that the entry depends on. -/
def forwardVisits (graph : ImportGraph) (depth : Nat) (entry : String) : List Visit :=
  search graph.next depth entry

/-- The visits of a search for the files that depend on the entry. -/
def backwardVisits (graph : ImportGraph) (depth : Nat) (entry : String) : List Visit :=
  let edges := graph.edges
  let step (path : String) : List String :=
    if graph.project.isLoadable path then sourcesIn edges path else []
  search step depth entry

/-- The visits to files that can be loaded. -/
def reached (graph : ImportGraph) (found : List Visit) : List Visit :=
  found.filter fun visit => graph.project.isLoadable visit.path

end ImportGraph

/-! ## Placements -/

/-- A file with the hops to it and the direction in which they lead. -/
structure Placement where
  path : String
  hop : Nat
  direction : Direction
  deriving DecidableEq, Repr, Inhabited

namespace Placement

/-- The placement that a visit gives. -/
def ofVisit (direction : Direction) (visit : Visit) : Placement :=
  { path := visit.path, hop := visit.hop,
    direction := if visit.hop == 0 then .entry else direction }

/-- The placements with one more. Of two for one file the nearer counts, at the place of the
earlier. -/
def insert (p : Placement) : List Placement → List Placement
  | [] => [p]
  | q :: rest =>
    if q.path == p.path then (if p.hop < q.hop then p else q) :: rest else q :: insert p rest

/-- The placements of the files that searches in both directions have reached, the nearest files
first. -/
def ofVisits (forward backward : List Visit) : List Placement :=
  let all := forward.map (ofVisit .forward) ++ backward.map (ofVisit .backward)
  (all.foldl (fun placed p => insert p placed) []).mergeSort fun p q => p.hop ≤ q.hop

end Placement

end CodeAtlas.Traversal
