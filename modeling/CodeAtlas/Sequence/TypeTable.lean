import CodeAtlas.Annotation
import CodeAtlas.Outline.Basic
import CodeAtlas.Sequence.Scope

/-!
# The types of names

Which class a member or a variable stands for, as far as declarations and assignments tell. Members
belong to a class, variables to a scope. Only names that may stand for a declared type are ever
recorded.
-/

namespace CodeAtlas

open Syntax

/-! ## What a file knows -/

/-- The names that a file declares or imports. -/
structure KnownNames where
  /-- Classes and interfaces with the names of their methods, once per declaration. -/
  classMethods : List (String × List String)
  functions : List String
  imported : List String

namespace KnownNames

/-- The names of an outline. -/
def ofOutline (o : Outline) : KnownNames :=
  { classMethods :=
      o.classes.map (fun c => (c.name, c.methods.map (·.name))) ++
        o.interfaces.map fun i => (i.name, i.methods.map (·.name))
    functions := o.functions.map (·.name)
    imported := o.imports.flatMap (·.specifiers) }

/-- Whether a class or interface of the name is declared. -/
def declaresClass (known : KnownNames) (name : String) : Bool :=
  known.classMethods.any (·.1 == name)

/-- Whether a class or interface of the name has a method of the other name. -/
def hasMethod (known : KnownNames) (owner method : String) : Bool :=
  known.classMethods.any fun (name, methods) => name == owner && methods.contains method

/-- Whether a name stands for a class that is declared or imported. -/
def isClass (known : KnownNames) (name : String) : Bool :=
  TypeName.isDeclared name && (known.declaresClass name || known.imported.contains name)

end KnownNames

/-! ## Tables -/

/-- The recorded classes. Of two entries under one key the earlier in the list counts. -/
structure TypeTable where
  members : List ((String × String) × String)
  locals : List ((ScopeKey × String) × String)

namespace TypeTable

def empty : TypeTable := ⟨[], []⟩

/-- The class of a member. -/
def member? (table : TypeTable) (owner name : String) : Option String :=
  table.members.lookup (owner, name)

/-- The class of a variable of a scope. -/
def local? (table : TypeTable) (key : ScopeKey) (name : String) : Option String :=
  table.locals.lookup (key, name)

/-- Records a member in place of an earlier entry. -/
def setMember (table : TypeTable) (owner name type : String) : TypeTable :=
  { table with members := ((owner, name), type) :: table.members }

/-- Records a variable in place of an earlier entry. -/
def setLocal (table : TypeTable) (key : ScopeKey) (name type : String) : TypeTable :=
  { table with locals := ((key, name), type) :: table.locals }

/-- Records a variable unless it is recorded already. -/
def addLocal (table : TypeTable) (key : ScopeKey) (name type : String) : TypeTable :=
  if (table.local? key name).isSome then table else table.setLocal key name type

/-! ## Declared types -/

/-- The class that an annotation stands for, if it is one and not a collection. -/
def singleClass? (written : Option String) : Option String :=
  match written.bind Annotation.core? with
  | none => none
  | some core => if !core.isArray && TypeName.isDeclared core.name then some core.name else none

/-- Records a field of a class. -/
def addProperty (owner : String) (table : TypeTable) (p : Property) : TypeTable :=
  match singleClass? p.type with
  | some type => table.setMember owner p.name type
  | none => table

/-- Records a parameter of the constructor of a class, and the field it may stand for. -/
def addConstructorParameter (owner : String) (table : TypeTable) (p : Parameter) : TypeTable :=
  match singleClass? p.type with
  | some type =>
    let table := if p.isProperty then table.setMember owner p.name type else table
    table.setLocal (.callable (some owner) "constructor") p.name type
  | none => table

/-- Records a parameter of a callable. Of callables that share a scope the first counts. -/
def addParameter (key : ScopeKey) (table : TypeTable) (p : Parameter) : TypeTable :=
  match singleClass? p.type with
  | some type => table.addLocal key p.name type
  | none => table

/-- Records what the declaration of a class tells. -/
def addClass (table : TypeTable) (c : ClassDecl) : TypeTable :=
  let table := c.properties.foldl (addProperty c.name) table
  let table := (c.constructorParameters.getD []).foldl (addConstructorParameter c.name) table
  c.methods.foldl (fun table m =>
    m.parameters.foldl (addParameter (.callable (some c.name) m.name)) table) table

/-- Records what the declaration of a function tells. -/
def addFunction (table : TypeTable) (f : FunctionDecl) : TypeTable :=
  f.parameters.foldl (addParameter (.callable none f.name)) table

/-- The types that the declarations of an outline tell. -/
def ofOutline (o : Outline) : TypeTable :=
  o.functions.foldl addFunction (o.classes.foldl addClass empty)

/-! ## Looking up -/

/-- The class of a bare name. Variables come first, from the innermost callable outwards; then,
where members can be used without naming the object, the members of the class around; then the
variables of the module; and last the name itself, if it is that of a known class. -/
def lookup? (table : TypeTable) (known : KnownNames) (calls : CallSyntax) (scope : Option Scope)
    (name : String) : Option String :=
  let inCallables := ((Scope.chainOf scope).filter (!·.isClass)).findSome? fun f =>
    table.local? f.key name
  let inClass :=
    if calls.implicitMembers then
      (Scope.ownerOf scope).bind fun owner => table.member? owner name
    else none
  inCallables <|> inClass <|> table.local? .module name <|>
    (if known.isClass name then some name else none)

/-! ## Assignments -/

/-- The text of a type node, without its colon. -/
def typeText? (node : Option Node) : Option String :=
  node.bind fun n =>
    let type := match n.named with
      | type :: _ => if n.kind == "type_annotation" then type else n
      | [] => n
    nonempty? (Text.onString Text.trim type.text)

/-- The class of a value: that of a constructor call, or that of a name. -/
def valueClass? (table : TypeTable) (known : KnownNames) (calls : CallSyntax)
    (scope : Option Scope) (value : Node) : Option String :=
  match calls.constructed? value with
  | some type => if TypeName.isDeclared type then some type else none
  | none =>
    if calls.callKinds.contains value.kind && calls.newKinds.isEmpty then
      (chainOf (value.field? "function")).getLast?.filter TypeName.isDeclared
    else if value.kind == "identifier" then table.lookup? known calls scope value.text
    else none

/-- Records an assignment to a variable, to a field of the class around, or, in the body of a
class, to a field of that class. -/
def assign (table : TypeTable) (known : KnownNames) (calls : CallSyntax) (scope : Option Scope)
    (target value : Option Node) (declaredType : Option String) : TypeTable :=
  match target with
  | none => table
  | some target =>
    let type := match singleClass? declaredType with
      | some type => some type
      | none => value.bind (table.valueClass? known calls scope)
    match type with
    | none => table
    | some type =>
      match chainOf (some target), scope with
      | [name], none => table.setLocal .module name type
      | [name], some scope =>
        if scope.frame.isClass then table.setMember scope.frame.name name type
        else table.setLocal scope.frame.key name type
      | [receiver, name], _ =>
        match Scope.ownerOf scope with
        | some owner =>
          if calls.receivers.contains receiver then table.setMember owner name type else table
        | none => table
      | _, _ => table

/-- Records a captured assignment or declaration. The type of a declaration may stand on the node
above it. -/
def addCapture (known : KnownNames) (calls : CallSyntax) (scopes : List Scope)
    (table : TypeTable) (capture : Capture CallTag) : TypeTable :=
  let node := capture.node
  let scope := Scope.around? scopes node
  match capture.tag with
  | .assign =>
    table.assign known calls scope (node.field? "left") (node.field? "right")
      (typeText? (node.field? "type"))
  | .declare =>
    let own := typeText? (node.field? "type")
    let declaredType := own <|> capture.site.parent?.bind fun p => typeText? (p.field? "type")
    table.assign known calls scope (node.field? "name") (node.field? "value") declaredType
  | _ => table

/-- The types that declarations and then assignments tell. -/
def ofCaptures (o : Outline) (known : KnownNames) (calls : CallSyntax) (scopes : List Scope)
    (captures : List (Capture CallTag)) : TypeTable :=
  captures.foldl (addCapture known calls scopes) (ofOutline o)

end TypeTable

end CodeAtlas
