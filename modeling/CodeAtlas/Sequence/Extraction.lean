import CodeAtlas.Sequence.Basic
import CodeAtlas.Sequence.TypeTable

/-!
# The sequence diagram of a file

Goes through the calls of a file in source order. A call counts when the code around it belongs to
a participant and the class or function it runs can be told. Control flow is not looked at.
-/

namespace CodeAtlas

open Syntax

/-! ## Diagrams under construction -/

/-- A diagram as far as it is drawn. -/
structure Diagram where
  path : String
  participants : List Participant
  interactions : List Interaction

namespace Diagram

/-- Whether there is a participant of the name. -/
def has (d : Diagram) (name : String) : Bool :=
  d.participants.any (·.name == name)

/-- Adds a participant unless there is one of the name. -/
def add (d : Diagram) (name : String) (kind : ParticipantKind) (line : Option Int) : Diagram :=
  if d.has name then d
  else { d with participants := d.participants ++ [{ name, kind, line, path := d.path }] }

/-- The name of the participant that stands for a file without classes and functions. -/
def moduleName : String := "Module"

/-- The participants that a file declares. -/
def ofOutline (o : Outline) : Diagram :=
  let d : Diagram := { path := o.path, participants := [], interactions := [] }
  let d := o.classes.foldl (fun d c => d.add c.name .cls (some c.line)) d
  let d := o.interfaces.foldl (fun d i => d.add i.name .cls (some i.line)) d
  let d := o.functions.foldl (fun d f => d.add f.name .function (some f.line)) d
  if o.classes.isEmpty && o.interfaces.isEmpty && o.functions.isEmpty then
    d.add moduleName .module none
  else d

end Diagram

/-! ## Callers -/

/-- The participant that runs a piece of code: the class it belongs to, or outside classes the
outermost function around it, or the module. Code in the body of a class itself runs for nobody. -/
def caller? (known : KnownNames) (d : Diagram) (scope : Option Scope) : Option String :=
  if (scope.map (·.frame.isClass)) == some true then none
  else
    match Scope.ownerOf scope with
    | some owner => some owner
    | none =>
      match ((Scope.chainOf scope).filter fun f => known.functions.contains f.name).getLast? with
      | some f => some f.name
      | none => if d.has Diagram.moduleName then some Diagram.moduleName else none

/-! ## Targets -/

/-- Names that stand for no participant unless the file declares or imports them. -/
def internalNames : List String :=
  ["super", "this", "self", "cls", "__init__", "__new__", "prototype", "arguments", "constructor"]

/-- Names that the languages bring along. -/
def isBuiltinTarget (name : String) : Bool :=
  TypeName.builtinNames.contains name || TypeName.primitiveNames.contains name ||
    ["Object", "console", "Math", "JSON"].contains name

/-- Whether calls to a target are left out: one that the file does not know and that is built in,
internal or a single character. -/
def isFiltered (known : KnownNames) (target : String) : Bool :=
  if known.declaresClass target || known.imported.contains target ||
      known.functions.contains target then false
  else isBuiltinTarget target || internalNames.contains target || target.length == 1

/-- The class that the members named by a chain lead to, from the class of their owner. A segment
that is no member may itself name a known class. -/
def followMembers (table : TypeTable) (known : KnownNames) (owner : String) :
    List String → Option String
  | [] => some owner
  | segment :: rest =>
    match table.member? owner segment with
    | some next => followMembers table known next rest
    | none => if known.isClass segment then followMembers table known segment rest else none

/-- The class or function that a call runs, given the chain before the method. -/
def target? (table : TypeTable) (known : KnownNames) (calls : CallSyntax) (scope : Option Scope)
    (receivers : List String) (method : String) : Option String :=
  match receivers with
  | [] =>
    match (Scope.ownerOf scope).filter fun owner => known.hasMethod owner method with
    | some owner => some owner
    | none => if known.functions.contains method then some method else none
  | first :: rest =>
    let owner :=
      if calls.receivers.contains first then Scope.ownerOf scope
      else table.lookup? known calls scope first
    owner.bind fun owner => followMembers table known owner rest

/-- The chain before the method of a call, and the method. -/
def callParts? (node : Node) : Option (List String × String) :=
  if node.kind == "method_invocation" then
    let method := node.fieldText "name"
    match node.field? "object" with
    | none => some ([], method)
    | some receiver =>
      match chainOf (some receiver) with
      | [] => none
      | receivers => some (receivers, method)
  else
    match chainOf (node.field? "function") with
    | [] => none
    | first :: rest => some ((first :: rest).dropLast, (first :: rest).getLastD "")

/-! ## Calls -/

/-- A call that counts: whom it runs, and under which name. -/
structure ResolvedCall where
  target : String
  method : String

/-- What a call runs. Where constructors have no keyword, the call of a declared type constructs
it. -/
def resolveCall? (table : TypeTable) (known : KnownNames) (calls : CallSyntax)
    (scope : Option Scope) (node : Node) : Option ResolvedCall :=
  match callParts? node with
  | none => none
  | some (receivers, method) =>
    if method.isEmpty then none
    else
      match target? table known calls scope receivers method with
      | some target => some ⟨target, method⟩
      | none =>
        if receivers.isEmpty && calls.newKinds.isEmpty && TypeName.isDeclared method then
          some ⟨method, "constructor"⟩
        else none

/-- What a constructor call runs. -/
def resolveNew? (calls : CallSyntax) (node : Node) : Option ResolvedCall :=
  ((calls.constructed? node).filter TypeName.isDeclared).map fun target =>
    ⟨target, "constructor"⟩

/-- What a captured node runs, if it is a call that counts. -/
def resolved? (table : TypeTable) (known : KnownNames) (calls : CallSyntax)
    (scope : Option Scope) (capture : Capture CallTag) : Option ResolvedCall :=
  let found := match capture.tag with
    | .call => resolveCall? table known calls scope capture.node
    | .new => resolveNew? calls capture.node
    | _ => none
  found.filter fun call => !isFiltered known call.target

/-- The diagram with a call and its return. -/
def Diagram.addCall (d : Diagram) (known : KnownNames) (calls : CallSyntax) (caller : String)
    (call : ResolvedCall) (capture : Capture CallTag) : Diagram :=
  let kind := if known.functions.contains call.target then .function else .cls
  let d := d.add call.target kind none
  let isAsync := match capture.site.parent? with
    | some parent => calls.awaitKinds.contains parent.kind
    | none => false
  let message := s!"{call.method}({capture.node.argumentText})"
  { d with
    interactions := d.interactions ++
      Interaction.callAndReturn caller call.target message isAsync capture.node.line d.path }

/-- The diagram with what a captured node adds. -/
def Diagram.addCapture (table : TypeTable) (known : KnownNames) (calls : CallSyntax)
    (scopes : List Scope) (d : Diagram) (capture : Capture CallTag) : Diagram :=
  let scope := Scope.around? scopes capture.node
  match caller? known d scope, resolved? table known calls scope capture with
  | some caller, some call => d.addCall known calls caller call capture
  | _, _ => d

/-! ## Entry points -/

/-- The public methods of the classes of a file, each once. Without classes, the functions whose
names do not open with a low line. -/
def Outline.entryPoints (o : Outline) : List String :=
  let classes := o.classes.filter (·.kind == .cls)
  if classes.isEmpty then
    (o.functions.filter fun f => f.name.toList.head? != some '_').map (·.name)
  else
    (classes.flatMap fun c =>
      (c.methods.filter (·.visibility == .pub)).map fun m => s!"{c.name}.{m.name}").eraseDups

/-! ## Files -/

/-- The sequence diagram of a file. Without a syntax tree it has no interactions. -/
def SequenceReport.ofOutline (o : Outline) : SequenceReport :=
  let known := KnownNames.ofOutline o
  let start := Diagram.ofOutline o
  let d := match o.tree, CallSyntax.ofLanguage? o.language with
    | some root, some calls =>
      let captures := root.captures (byKind calls.tags)
      let scopes := Scope.ofCaptures captures
      let table := TypeTable.ofCaptures o known calls scopes captures
      captures.foldl (Diagram.addCapture table known calls scopes) start
    | _, _ => start
  { participants := d.participants
    interactions := d.interactions
    entryPoints := o.entryPoints }

end CodeAtlas
