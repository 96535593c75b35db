import CodeAtlas.Annotation
import CodeAtlas.Outline.Declared
import CodeAtlas.Syntax.Capture
import CodeAtlas.Syntax.Name

/-!
# Outlines of Java files

Reads the syntax tree of a Java file. A member without a modifier counts as public. Enumerations
and records are classes; the components of a record are both its constructor parameters and
private fields. Types nested in the body of a type are declared before it.
-/

namespace CodeAtlas.Outline.Java

open Syntax

/-! ## Pieces of declarations -/

/-- The keywords among the modifiers of a declaration. -/
def modifiers (node : Node) : List String :=
  match node.child? ["modifiers"] with
  | none => []
  | some list => (list.children.filter (!·.label.isNamed)).map (·.kind)

/-- The visibility that modifiers give. -/
def visibility (modifiers : List String) : Visibility :=
  if modifiers.contains "private" then .priv
  else if modifiers.contains "protected" then .prot
  else .pub

/-- The names of the types that a clause lists. -/
def typeList : Option Node → List String
  | none => []
  | some clause =>
    ((clause.child? ["type_list"]).getD clause).named.map fun type => typeHead type.text

/-- The text of a type with the array dimensions that stand after the name. -/
def typeText (type : Option Node) (declarator : Node) : String :=
  Node.textOf type ++ declarator.fieldText "dimensions"

/-- The parameter that a node of a parameter list declares. A variable number of arguments is an
array. -/
def parameter? (node : Node) : Option Parameter :=
  if node.kind == "formal_parameter" then
    some { name := node.fieldText "name"
           type := nonempty? (typeText (node.field? "type") node) }
  else if node.kind == "spread_parameter" then
    let type := node.named.find? fun c => c.kind != "modifiers" && c.kind != "variable_declarator"
    let name := (node.child? ["variable_declarator"]).bind (·.field? "name")
    some { name := Node.textOf name
           type := (nonempty? (Node.textOf type)).map (· ++ "[]")
           isOptional := true }
  else none

/-- The parameters of a parameter list. -/
def parameters : Option Node → List Parameter
  | none => []
  | some list => list.named.filterMap parameter?

/-! ## Members -/

/-- A field for every name that a field declaration lists. The fields of an interface are
constants. -/
def fieldProperties (inInterface : Bool) (node : Node) : List Property :=
  let modifiers := modifiers node
  (node.fields "declarator").map fun declarator =>
    let type := typeText (node.field? "type") declarator
    let (isArray, isClassType) := Annotation.describe (some type)
    { name := declarator.fieldText "name"
      type := nonempty? type
      visibility := visibility modifiers
      isArray
      isClassType
      isStatic := modifiers.contains "static" || inInterface
      isReadonly := modifiers.contains "final" || inInterface
      line := declarator.line }

/-- The fields that a node of a body declares. -/
def properties (inInterface : Bool) (node : Node) : List Property :=
  if node.kind == "field_declaration" || node.kind == "constant_declaration" then
    fieldProperties inInterface node
  else []

/-- The method that a node of a body declares. A method of an interface without a body is
abstract. -/
def method? (inInterface : Bool) (node : Node) : Option Method :=
  if node.kind == "method_declaration" then
    let modifiers := modifiers node
    some
      { name := node.fieldText "name"
        parameters := parameters (node.field? "parameters")
        returnType := nonempty? (node.fieldText "type")
        visibility := visibility modifiers
        isStatic := modifiers.contains "static"
        isAbstract :=
          modifiers.contains "abstract" || (inInterface && (node.field? "body").isNone)
        line := node.line }
  else none

/-- The parameters known so far and those of one more constructor, if the node is one. A
constructor adds the parameters whose names the earlier ones lack. -/
def addConstructor (known : Option (List Parameter)) (node : Node) : Option (List Parameter) :=
  if node.kind == "constructor_declaration" then
    let own := parameters (node.field? "parameters")
    match known with
    | none => some own
    | some ps => some (ps ++ own.filter fun p => !(ps.map (·.name)).contains p.name)
  else known

/-! ## Types -/

/-- The nodes in the body of a type. In an enumeration these follow the constants. -/
def bodyMembers (node : Node) : List Node :=
  match node.field? "body" with
  | none => []
  | some body =>
    if node.kind == "enum_declaration" then
      match body.child? ["enum_body_declarations"] with
      | some declarations => declarations.named
      | none => []
    else body.named

theorem sizeOf_lt_of_mem_bodyMembers {n c : Node} (h : c ∈ bodyMembers n) :
    sizeOf c < sizeOf n := by
  unfold bodyMembers at h
  split at h
  · cases h
  · rename_i body hb
    have hbody := Node.sizeOf_lt_of_mem_children (Node.mem_children_of_field? hb)
    split at h
    · split at h
      · rename_i declarations hd
        have := Node.sizeOf_lt_of_mem_children (Node.mem_children_of_child? hd)
        have := Node.sizeOf_lt_of_mem_children (Node.mem_children_of_mem_named h)
        omega
      · cases h
    · have := Node.sizeOf_lt_of_mem_children (Node.mem_children_of_mem_named h)
      omega

/-- The class that a class or enumeration node declares. Only a class has a superclass. -/
def classDecl (path name : String) (node : Node) : ClassDecl :=
  let members := bodyMembers node
  let isClass := node.kind == "class_declaration"
  { name
    properties := members.flatMap (properties false)
    methods := members.filterMap (method? false)
    base :=
      if isClass then
        ((node.field? "superclass").bind (·.named.head?)).map fun type => typeHead type.text
      else none
    implements := typeList (node.field? "interfaces")
    constructorParameters := members.foldl addConstructor none
    line := node.line
    isAbstract := isClass && (modifiers node).contains "abstract"
    path }

/-- The field that a record component stands for. -/
def componentProperty (line : Int) (component : Parameter) : Property :=
  let (isArray, isClassType) := Annotation.describe component.type
  { name := component.name, type := component.type, visibility := .priv, isArray, isClassType
    isReadonly := true, line }

/-- The class that a record node declares. -/
def recordDecl (path name : String) (node : Node) : ClassDecl :=
  let members := bodyMembers node
  let components := parameters (node.field? "parameters")
  { name
    properties :=
      components.map (componentProperty node.line) ++ members.flatMap (properties false)
    methods := members.filterMap (method? false)
    implements := typeList (node.field? "interfaces")
    constructorParameters := members.foldl addConstructor (some components)
    line := node.line
    path }

/-- The interface that a node declares. -/
def interfaceDecl (path name : String) (node : Node) : InterfaceDecl :=
  let members := bodyMembers node
  { name
    properties := members.flatMap (properties true)
    methods := members.filterMap (method? true)
    bases := typeList (node.child? ["extends_interfaces"])
    line := node.line
    path }

/-- Whether a node declares a type. -/
def isTypeDeclaration (node : Node) : Bool :=
  ["class_declaration", "interface_declaration", "enum_declaration", "record_declaration"].contains
    node.kind

/-- What a type node declares itself, without the types nested in it. -/
def ownDeclared (path name : String) (node : Node) : Declared :=
  if node.kind == "interface_declaration" then
    let i := interfaceDecl path name node
    { classes := [i.asClass], interfaces := [i] }
  else if node.kind == "record_declaration" then { classes := [recordDecl path name node] }
  else { classes := [classDecl path name node] }

/-- What a node declares: the types nested in it, and then its own. A type without a name declares
nothing. -/
def declared (path : String) (node : Node) : Declared :=
  if isTypeDeclaration node then
    match nonempty? (node.fieldText "name") with
    | none => {}
    | some name =>
      Declared.concat ((bodyMembers node).attach.map fun ⟨member, _⟩ => declared path member) ++
        ownDeclared path name node
  else {}
termination_by node
decreasing_by exact sizeOf_lt_of_mem_bodyMembers (by assumption)

/-! ## Files -/

/-- The export of a public type. -/
def export? (node : Node) : Option Export :=
  if isTypeDeclaration node && (modifiers node).contains "public" then
    (nonempty? (node.fieldText "name")).map fun name =>
      { name
        kind :=
          if node.kind == "class_declaration" then "class"
          else if node.kind == "interface_declaration" then "interface"
          else if node.kind == "enum_declaration" then "enum"
          else "record"
        line := node.line }
  else none

/-- Import declarations. -/
def importQuery : Site → Option Unit :=
  byKind [((), ["import_declaration"])]

/-- The import of an import declaration. One with an asterisk names no type of its own. -/
def importOf? (capture : Capture Unit) : Option Import :=
  (capture.node.child? ["scoped_identifier", "identifier"]).map fun path =>
    let i : Import := { source := path.text, line := capture.node.line }
    if (capture.node.child? ["asterisk"]).isSome then { i with isNamespace := true }
    else i.addSpecifier (lastSegment path.text)

/-- The outline of a Java file. -/
def outline (path : String) (root : Node) : Outline :=
  let found := Declared.concat (root.named.map (declared path))
  { language := .java, path
    classes := found.classes
    interfaces := found.interfaces
    imports := (root.captures importQuery).filterMap importOf?
    exports := root.named.filterMap export?
    tree := some root }

end CodeAtlas.Outline.Java
