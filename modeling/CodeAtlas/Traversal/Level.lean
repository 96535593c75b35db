/-!
# Levels of a graph

The nodes of a graph level by level: the start, then what one step leads to, then what two steps
lead to, and so on up to a depth. A node stands in the first level that it is reached in, at the
place where it is reached first.
-/

namespace CodeAtlas.Traversal

variable {α : Type} [BEq α]

/-- The nodes of a list that have not been seen, each once. -/
def fresh (seen reached : List α) : List α :=
  (reached.filter (!seen.contains ·)).eraseDups

/-- The levels from one on, given the nodes seen so far. There is no level after an empty one. -/
def levelsFrom (step : α → List α) : Nat → List α → List α → List (List α)
  | _, _, [] => []
  | 0, _, level => [level]
  | depth + 1, seen, level =>
    let next := fresh seen (level.flatMap step)
    level :: levelsFrom step depth (seen ++ next) next

/-- The levels from a start, at most `depth` of them after the first. -/
def levels (step : α → List α) (depth : Nat) (start : α) : List (List α) :=
  levelsFrom step depth [start] [start]

/-- The nodes of all levels in turn, each with the number of its level. -/
def visits (step : α → List α) (depth : Nat) (start : α) : List (α × Nat) :=
  (levels step depth start).zipIdx.flatMap fun (level, hop) => level.map fun node => (node, hop)

end CodeAtlas.Traversal
