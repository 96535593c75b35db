import CodeAtlas.Annotation
import CodeAtlas.Outline.Declared
import CodeAtlas.Syntax.Capture
import CodeAtlas.Syntax.Name

/-!
# Outlines of Python files

Reads the syntax tree of a Python file. Names tell the visibility of members. Fields come from
assignments in the class body and from assignments to attributes of `self` in `__init__`. Bases
that only mark a class, such as `ABC` or `Protocol`, are no part of the inheritance.
-/

namespace CodeAtlas.Outline.Python

open Syntax

/-! ## Pieces of declarations -/

/-- The visibility that a name gives: two low lines in front make it private unless two follow at
the end, one makes it protected. -/
def visibilityOf (name : String) : Visibility :=
  let cs := name.toList
  if ['_', '_'].isPrefixOf cs then
    if ['_', '_'].isSuffixOf cs then .pub else .priv
  else if ['_'].isPrefixOf cs then .prot
  else .pub

/-- The text of an annotation, without quotation marks around it. -/
def typeText : Option Node → Option String
  | none => none
  | some node => nonempty? (stripQuotes (Text.onString Text.trim node.text))

/-- The name that a parameter binds, without the stars in front. -/
def parameterName : Option Node → String
  | none => ""
  | some node =>
    if node.kind == "list_splat_pattern" || node.kind == "dictionary_splat_pattern" then
      Node.textOf (node.child? ["identifier"])
    else node.text

/-- The parameter that a node of a parameter list declares. -/
def parameter? (node : Node) : Option Parameter :=
  if node.kind == "identifier" then some { name := node.text }
  else if node.kind == "typed_parameter" then
    some { name := parameterName node.named.head?, type := typeText (node.field? "type") }
  else if node.kind == "default_parameter" || node.kind == "typed_default_parameter" then
    some { name := node.fieldText "name", type := typeText (node.field? "type")
           isOptional := true }
  else if node.kind == "list_splat_pattern" || node.kind == "dictionary_splat_pattern" then
    some { name := parameterName (some node), isOptional := true }
  else none

/-- The parameters of a parameter list. -/
def parameters : Option Node → List Parameter
  | none => []
  | some list => list.named.filterMap parameter?

/-- The type that a value shows: the class of a constructor call, or an array of the type of the
first element or of the body of a comprehension. -/
def inferredType (value : Node) : Option String :=
  if value.kind == "call" then
    match value.field? "function" with
    | some function =>
      let callee := lastSegment function.text
      if (function.kind == "identifier" || function.kind == "attribute") &&
          TypeName.isDeclared callee then some callee
      else none
    | none => none
  else if value.kind == "list" then
    match _h : value.named with
    | element :: _ => (inferredType element).map (· ++ "[]")
    | [] => none
  else if value.kind == "list_comprehension" then
    match _h : value.field? "body" with
    | some body => (inferredType body).map (· ++ "[]")
    | none => none
  else none
termination_by value
decreasing_by
  · exact Node.sizeOf_lt_of_mem_children
      (Node.mem_children_of_mem_named (_h ▸ List.mem_cons_self))
  · exact Node.sizeOf_lt_of_mem_children (Node.mem_children_of_field? _h)

/-- The names of the decorators of a definition, and the definition itself. -/
def undecorated (node : Node) : List String × Node :=
  if node.kind == "decorated_definition" then
    let decorators := (node.named.filter (·.kind == "decorator")).map fun decorator =>
      lastSegment (Text.onString (fun cs =>
        Text.trim (Text.beforeFirst '(' (cs.dropWhile (· == '@')))) decorator.text)
    (decorators, (node.field? "definition").getD node)
  else ([], node)

/-! ## Bases -/

/-- Bases that mark a class and are no base of it. -/
def markerBases : List String :=
  ["object", "ABC", "Protocol", "Generic", "NamedTuple", "TypedDict"]

/-- A base of a class as it is read: one to inherit from, or a mark. -/
inductive Base where
  | inherited (name : String)
  | mark (name : String)

/-- The base that an argument in the header of a class gives. A metaclass is a mark. -/
def base? (argument : Node) : Option Base :=
  if argument.kind == "keyword_argument" then
    if argument.fieldText "name" == "metaclass" then
      some (.mark (lastSegment (argument.fieldText "value")))
    else none
  else
    let head :=
      if argument.kind == "subscript" then (argument.field? "value").getD argument else argument
    if head.kind == "identifier" || head.kind == "attribute" then
      let name := lastSegment head.text
      some (if markerBases.contains name then .mark name else .inherited name)
    else none

/-! ## Fields -/

/-- The fields with one more, unless it has no name or the name is taken. -/
def addProperty (properties : List Property) (name : String) (type : Option String)
    (isStatic : Bool) (line : Int) : List Property :=
  if name.isEmpty || properties.any (·.name == name) then properties
  else
    let (isArray, isClassType) := Annotation.describe type
    properties ++
      [{ name, type, visibility := visibilityOf name, isArray, isClassType, isStatic
         isReadonly := match type with
           | some type => "Final".toList.isPrefixOf type.toList
           | none => false
         line }]

/-- The fields with the one that a statement of the class body assigns. Without an annotation, or
with the annotation `ClassVar`, it belongs to the class itself. -/
def addClassAttribute (properties : List Property) (statement : Node) : List Property :=
  match statement.child? ["assignment"] with
  | none => properties
  | some assignment =>
    match assignment.field? "left" with
    | none => properties
    | some left =>
      if left.kind != "identifier" then properties
      else
        match typeText (assignment.field? "type") with
        | some type =>
          let isStatic := "ClassVar".toList.isPrefixOf type.toList ||
            "typing.ClassVar".toList.isPrefixOf type.toList
          addProperty properties left.text (some type) isStatic statement.line
        | none =>
          let type := (assignment.field? "right").bind inferredType
          addProperty properties left.text type true statement.line

/-- The type of a parameter by its name. Of several with a type and one name the last counts. -/
def parameterType? (parameters : List Parameter) (name : String) : Option String :=
  (parameters.reverse.find? fun p => p.type.isSome && p.name == name).bind (·.type)

/-- The fields with the one that an assignment in `__init__` gives an attribute of `self`. The type
is the annotation, or that of the parameter assigned, or what the value shows. -/
def addInstanceAttribute (parameters : List Parameter) (properties : List Property)
    (assignment : Node) : List Property :=
  match assignment.field? "left" with
  | none => properties
  | some left =>
    if left.kind == "attribute" && left.fieldText "object" == "self" then
      let right := assignment.field? "right"
      let fromParameter := match right with
        | some value =>
          if value.kind == "identifier" then parameterType? parameters value.text else none
        | none => none
      let type := ((typeText (assignment.field? "type")).or fromParameter).or
        (right.bind inferredType)
      addProperty properties (left.fieldText "attribute") type false assignment.line
    else properties

/-- Functions and classes. What stands inside one belongs to it. -/
def definitionKinds : List String :=
  ["function_definition", "class_definition"]

/-- The fields with those that the body of `__init__` gives to `self`. Functions and classes inside
it are left alone. -/
def addInstanceAttributes (parameters : List Parameter) (properties : List Property)
    (init : Node) : List Property :=
  match init.field? "body" with
  | none => properties
  | some body =>
    ((body.walk definitionKinds).filter (·.kind == "assignment")).foldl
      (addInstanceAttribute parameters) properties

/-! ## Classes -/

/-- What the body of a class has shown so far. -/
structure Body where
  properties : List Property := []
  methods : List Method := []
  constructorParameters : Option (List Parameter) := none

/-- The body with a method definition. The parameter for the receiver is left out, and `__init__`
is the constructor. -/
def Body.addMethod (body : Body) (decorators : List String) (node : Node) : Body :=
  let name := node.fieldText "name"
  let parameters := match parameters (node.field? "parameters") with
    | first :: rest =>
      if (first.name == "self" || first.name == "cls") && !decorators.contains "staticmethod" then
        rest
      else first :: rest
    | [] => []
  if name == "__init__" then
    { body with
      constructorParameters := some parameters
      properties := addInstanceAttributes parameters body.properties node }
  else
    { body with
      methods := body.methods ++
        [{ name
           parameters
           returnType := typeText (node.field? "return_type")
           visibility := visibilityOf name
           isStatic := decorators.contains "staticmethod" || decorators.contains "classmethod"
           isAbstract := decorators.contains "abstractmethod"
           isAsync := node.hasToken "async"
           line := node.line }] }

/-- The body with one more statement. -/
def Body.addStatement (body : Body) (statement : Node) : Body :=
  let (decorators, definition) := undecorated statement
  if definition.kind == "function_definition" then body.addMethod decorators definition
  else if definition.kind == "expression_statement" then
    { body with properties := addClassAttribute body.properties definition }
  else body

/-- What a class definition declares: a class, and an interface too if it is a protocol. -/
def classDeclared (path : String) (node : Node) : Declared :=
  match nonempty? (node.fieldText "name") with
  | none => {}
  | some name =>
    let bases := match node.field? "superclasses" with
      | some list => list.named.filterMap base?
      | none => []
    let inherited := bases.filterMap fun | .inherited b => some b | .mark _ => none
    let marks := bases.filterMap fun | .mark m => some m | .inherited _ => none
    let body := match node.field? "body" with
      | some block => block.named.foldl Body.addStatement {}
      | none => {}
    let isProtocol := marks.contains "Protocol"
    let found : ClassDecl :=
      { name
        kind := if isProtocol then .interface else .cls
        properties := body.properties
        methods := body.methods
        base := inherited.head?
        implements := inherited.tail
        constructorParameters := body.constructorParameters
        line := node.line
        isAbstract := marks.contains "ABC" || marks.contains "ABCMeta" ||
          body.methods.any (·.isAbstract)
        path }
    { classes := [found]
      interfaces :=
        if isProtocol then
          [{ name, properties := body.properties, methods := body.methods, bases := inherited
             line := node.line, path }]
        else [] }

/-- What a function definition at the top declares. -/
def functionDeclared (node : Node) : Declared :=
  match nonempty? (node.fieldText "name") with
  | none => {}
  | some name =>
    { functions :=
        [{ name
           parameters := parameters (node.field? "parameters")
           returnType := typeText (node.field? "return_type")
           isExported := !(List.isPrefixOf ['_'] name.toList)
           isAsync := node.hasToken "async"
           line := node.line }] }

/-- What a statement at the top declares. -/
def declared (path : String) (node : Node) : Declared :=
  let definition := (undecorated node).2
  if definition.kind == "class_definition" then classDeclared path definition
  else if definition.kind == "function_definition" then functionDeclared definition
  else {}

/-! ## Exports and imports -/

/-- The exports that an assignment to `__all__` lists. -/
def exports (node : Node) : List Export :=
  let definition := (undecorated node).2
  if definition.kind == "expression_statement" then
    match definition.child? ["assignment"] with
    | none => []
    | some assignment =>
      match assignment.field? "right" with
      | some right =>
        if assignment.fieldText "left" == "__all__" then
          (right.named.filter (·.kind == "string")).map fun element =>
            { name := stripQuotes element.text, kind := "__all__", line := element.line }
        else []
      | none => []
  else []

/-- The forms of import statements. -/
inductive ImportForm where
  | module
  | names
  deriving DecidableEq

/-- Import statements of both forms. -/
def importQuery : Site → Option ImportForm :=
  byKind [(.module, ["import_statement"]), (.names, ["import_from_statement"])]

/-- The import of one module that a statement names, under its alias if it has one. -/
def moduleImport (line : Int) (nameNode : Node) : Import :=
  let (given, module) :=
    if nameNode.kind == "aliased_import" then
      (nameNode.fieldText "alias", nameNode.fieldText "name")
    else ("", nameNode.text)
  { source := module, isNamespace := true
    asName := some (if given.isEmpty then module else given), line }

/-- The import of names from one module. -/
def namesImport (node : Node) : Import :=
  let i : Import :=
    { source := node.fieldText "module_name"
      isNamespace := (node.child? ["wildcard_import"]).isSome
      line := node.line }
  i.addSpecifiers ((node.fields "name").map fun nameNode =>
    if nameNode.kind == "aliased_import" then nameNode.fieldText "name" else nameNode.text)

/-- The imports of a captured statement. -/
def importsOf (capture : Capture ImportForm) : List Import :=
  match capture.tag with
  | .module => (capture.node.fields "name").map (moduleImport capture.node.line)
  | .names => [namesImport capture.node]

/-! ## Files -/

/-- The outline of a Python file. -/
def outline (path : String) (root : Node) : Outline :=
  let found := Declared.concat (root.named.map (declared path))
  { language := .python, path
    classes := found.classes
    interfaces := found.interfaces
    functions := found.functions
    imports := (root.captures importQuery).flatMap importsOf
    exports := root.named.flatMap exports
    tree := some root }

end CodeAtlas.Outline.Python
