/-!
# Relationships between classes

A relationship points from a class to the class that it uses. Inheritance is kept apart, as a map
from each base to its subclasses.
-/

namespace CodeAtlas

/-- How a class uses another. -/
inductive RelationKind where
  /-- It owns one as a part. -/
  | composition
  /-- It holds a collection of them. -/
  | aggregation
  /-- It offers one to everybody. -/
  | association
  /-- A method takes or returns one. -/
  | dependency
  /-- The constructor is given one. -/
  | injection
  deriving DecidableEq, Repr, Inhabited

namespace RelationKind

/-- The kind in one word. -/
def name : RelationKind → String
  | composition => "composition"
  | aggregation => "aggregation"
  | association => "association"
  | dependency => "dependency"
  | injection => "injection"

/-- Every kind. -/
def all : List RelationKind :=
  [composition, aggregation, association, dependency, injection]

end RelationKind

/-- A relationship from one class to another. -/
structure Relation where
  source : String
  target : String
  kind : RelationKind
  /-- How many are held: `1` or `*`. -/
  cardinality : Option String
  line : Int
  /-- The member that shows the relationship. -/
  context : String
  /-- Whether the target is imported. -/
  isExternal : Bool
  /-- The module that it is imported from. -/
  sourceModule : Option String
  deriving DecidableEq, Repr, Inhabited

/-- What tells a relationship from the others of a project. -/
def Relation.key (r : Relation) : String × String × RelationKind × String :=
  (r.source, r.target, r.kind, r.context)

/-! ## Inheritance -/

/-- Every base with its subclasses, both in the order in which they were found. -/
abbrev Inheritance := List (String × List String)

namespace Inheritance

/-- Adds a name to a list that lacks it. -/
def insertName (name : String) (names : List String) : List String :=
  if names.contains name then names else names ++ [name]

/-- The map with one more subclass of a base. -/
def insert (base sub : String) : Inheritance → Inheritance
  | [] => [(base, [sub])]
  | (b, subs) :: rest =>
    if b == base then (b, insertName sub subs) :: rest else (b, subs) :: insert base sub rest

/-- The pairs of a base and a subclass. -/
def pairs (map : Inheritance) : List (String × String) :=
  map.flatMap fun (base, subs) => subs.map fun sub => (base, sub)

/-- The map with the pairs of another. -/
def merge (map other : Inheritance) : Inheritance :=
  other.pairs.foldl (fun map (base, sub) => map.insert base sub) map

end Inheritance

end CodeAtlas
