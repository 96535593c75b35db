import CodeAtlas.Syntax.Call

/-!
# Scopes

The classes and callables of a file, each with the scopes around it. Scopes are found in source
order; the one around a piece of code is the last that starts no later and ends no earlier.
-/

namespace CodeAtlas

open Syntax

/-- What tells the variables of one scope from those of others. Callables of one class and one
name share theirs. -/
inductive ScopeKey where
  | module
  | callable (owner : Option String) (name : String)
  | span (start stop : Nat)
  deriving DecidableEq, Repr, Inhabited

/-- One class or callable. -/
structure Frame where
  start : Nat
  stop : Nat
  name : String
  isClass : Bool
  key : ScopeKey
  /-- The class itself, or the class that the callable belongs to. -/
  owner : Option String
  deriving DecidableEq, Repr, Inhabited

/-- A class or callable with the scopes around it, the nearest first. -/
structure Scope where
  frame : Frame
  outer : List Frame
  deriving Repr, Inhabited

namespace Scope

/-- The scope and those around it, from the inside out. -/
def chain (scope : Scope) : List Frame :=
  scope.frame :: scope.outer

/-- The class that a piece of code belongs to, given the scope around it. -/
def ownerOf (scope : Option Scope) : Option String :=
  scope.bind (·.frame.owner)

/-- The frames around a piece of code, from the inside out. -/
def chainOf : Option Scope → List Frame
  | none => []
  | some scope => scope.chain

/-! ## Names -/

/-- The name of a class scope. A class without a name that is exported is the default export. -/
def className? (site : Site) : Option String :=
  match nonempty? (site.node.fieldText "name") with
  | some name => some name
  | none =>
    if (site.parent?.map (·.kind)) == some "export_statement" then some "default" else none

/-- The name of the variable or field that a function value is assigned to. -/
def assignedName (site : Site) : String :=
  match site.parent? with
  | none => ""
  | some parent =>
    let isValue := match parent.field? "value" with
      | some value => value.same site.node
      | none => false
    if ["variable_declarator", "public_field_definition", "field_definition"].contains
        parent.kind && isValue then
      stripPrivateMark (Node.textOf (parent.firstField? ["name", "property"]))
    else ""

/-- The name of a callable. Constructors of every language are called `constructor`; a callable
that is called nothing may be named by what it is assigned to. -/
def callableName? (site : Site) : Option String :=
  if site.node.kind == "constructor_declaration" then some "constructor"
  else
    let own := site.node.fieldText "name"
    let name := if own.isEmpty then assignedName site else own
    if name == "__init__" then some "constructor" else nonempty? name

/-! ## Scopes of a file -/

/-- The frame that a captured node opens inside the given ones. A class without a name opens
none. -/
def frame? (outer : List Frame) (capture : Capture CallTag) : Option Frame :=
  let start := capture.node.start
  let stop := capture.node.stop
  let owner := (outer.head?).bind (·.owner)
  match capture.tag with
  | .classScope =>
    (className? capture.site).map fun name =>
      { start, stop, name, isClass := true, key := .module, owner := some name }
  | .callableScope =>
    match callableName? capture.site with
    | some name => some { start, stop, name, isClass := false, key := .callable owner name, owner }
    | none => some { start, stop, name := "", isClass := false, key := .span start stop, owner }
  | _ => none

/-- The scopes that a list of captures opens, in order, while the given frames are open. A frame is
closed by the first capture that ends after it. -/
def openAll (frames : List Frame) : List (Capture CallTag) → List Scope
  | [] => []
  | capture :: rest =>
    let outer := frames.dropWhile fun f => f.stop < capture.node.stop
    match frame? outer capture with
    | some frame => ⟨frame, outer⟩ :: openAll (frame :: outer) rest
    | none => openAll outer rest

/-- Whether a capture may open a scope. -/
def opensScope (capture : Capture CallTag) : Bool :=
  capture.tag == .classScope || capture.tag == .callableScope

/-- The scopes of a file, in source order. -/
def ofCaptures (captures : List (Capture CallTag)) : List Scope :=
  openAll [] (captures.filter opensScope)

/-- The scope around a node: the last that starts no later than it and ends no earlier. -/
def around? (scopes : List Scope) (node : Node) : Option Scope :=
  (scopes.reverse.dropWhile fun s => node.start < s.frame.start).find? fun s =>
    node.stop ≤ s.frame.stop

end Scope

end CodeAtlas
