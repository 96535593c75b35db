import CodeAtlas.Failure

/-!
# What a traversal is asked for

A traversal starts at an entry file and goes forward, to the files that a file depends on, or
backward, to those that depend on it, or both ways. Its depth is the number of hops it may take.
-/

namespace CodeAtlas.Traversal

/-- Which way a traversal goes. -/
inductive Mode where
  | forward
  | backward
  | bidirectional
  deriving DecidableEq, Repr, Inhabited

namespace Mode

/-- The name of a mode. -/
def name : Mode → String
  | forward => "forward"
  | backward => "backward"
  | bidirectional => "bidirectional"

/-- The mode of a name. -/
def ofName? (s : String) : Option Mode :=
  [forward, backward, bidirectional].find? (·.name == s)

/-- The mode that a value names. -/
def ofJson (value : Json) : Except Failure Mode :=
  let named := match value with
    | .str s => ofName? s
    | _ => none
  match named with
  | some mode => .ok mode
  | none => .error (.unknownMember "TraversalMode" value)

/-- Whether the files are sought that a file depends on. -/
def goesForward (mode : Mode) : Bool :=
  mode != backward

/-- Whether the files are sought that depend on a file. -/
def goesBackward (mode : Mode) : Bool :=
  mode != forward

end Mode

/-- How a file was reached. -/
inductive Direction where
  /-- It is the entry. -/
  | entry
  | forward
  | backward
  deriving DecidableEq, Repr, Inhabited

/-- The name of a direction. -/
def Direction.name : Direction → String
  | entry => "entry"
  | forward => "forward"
  | backward => "backward"

/-- The depth that a value stands for: a whole number not below zero. -/
def depthOf (value : Json) : Except Failure Nat :=
  match value with
  | .int n => if 0 ≤ n then .ok n.toNat else .error (.invalidDepth value)
  | _ => .error (.invalidDepth value)

/-- A request for a traversal. The mode and depth are as the caller gave them. -/
structure Request where
  entry : String
  mode : Json
  depth : Json
  deriving Inhabited

/-- A request that has been found good: the canonical entry, the mode and the depth. -/
structure Request.Checked where
  entry : String
  mode : Mode
  depth : Nat

end CodeAtlas.Traversal
