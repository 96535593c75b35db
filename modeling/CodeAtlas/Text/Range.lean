/-!
# Sets of characters as strided ranges

A row `(lo, hi, step)` stands for the code points `lo, lo + step, …` up to `hi`. Scripts with
paired letters alternate between the two cases, so a step of two keeps the case tables short.
-/

namespace CodeAtlas.Text

/-- One row of a table of code points. -/
def inRange (n : Nat) (row : Nat × Nat × Nat) : Bool :=
  row.1 ≤ n && n ≤ row.2.1 && (n - row.1) % row.2.2 == 0

/-- A character belongs to a table when one of its rows holds its code point. -/
def inTable (table : Array (Nat × Nat × Nat)) (c : Char) : Bool :=
  table.any (inRange c.toNat)

end CodeAtlas.Text
