import CodeAtlas.Annotation
import CodeAtlas.Outline.Declared
import CodeAtlas.Syntax.Capture
import CodeAtlas.Syntax.Name

/-!
# Outlines of script files

Reads the syntax tree of a TypeScript or JavaScript file. The two grammars name fields and
parameters differently and write the heritage of a class in different shapes; one reader knows
both. Declarations are read from the statements at the top, imports from anywhere in the file.
-/

namespace CodeAtlas.Outline.Script

open Syntax

/-! ## Pieces of declarations -/

/-- The text of an annotation without its colon. -/
def typeNote (node : Option Node) : Option String :=
  node.bind fun n =>
    match n.named with
    | type :: _ =>
      nonempty? (if "type_annotation".toList.isSuffixOf n.kind.toList then type.text else n.text)
    | [] => nonempty? n.text

/-- The visibility that an accessibility modifier gives, public without one. -/
def visibility (node : Node) : Visibility :=
  match node.child? ["accessibility_modifier"] with
  | none => .pub
  | some modifier => (Visibility.ofName? modifier.text).getD .pub

/-- The name that a parameter pattern binds. A rest pattern binds the identifier in it. -/
def patternName : Option Node → String
  | none => ""
  | some pattern =>
    if pattern.kind == "rest_pattern" then Node.textOf (pattern.child? ["identifier"])
    else pattern.text

/-- The parameter that a node of a parameter list declares. The parameter `this` is none. -/
def parameter? (node : Node) : Option Parameter :=
  if node.kind == "required_parameter" || node.kind == "optional_parameter" then
    match node.field? "pattern" with
    | none => none
    | some pattern =>
      if pattern.kind == "this" then none
      else
        let isProperty :=
          (node.child? ["accessibility_modifier"]).isSome || node.hasToken "readonly"
        some
          { name := patternName (some pattern)
            type := typeNote (node.field? "type")
            isOptional := node.kind == "optional_parameter" || (node.field? "value").isSome
            isProperty
            visibility := if isProperty then some (visibility node) else none }
  else if node.kind == "identifier" then some { name := node.text }
  else if node.kind == "assignment_pattern" then
    some { name := patternName (node.field? "left"), isOptional := true }
  else if node.kind == "rest_pattern" then some { name := patternName (some node) }
  else none

/-- The parameters of a parameter list. -/
def parameters : Option Node → List Parameter
  | none => []
  | some list => list.named.filterMap parameter?

/-- The type that an initial value shows: the class of a constructor call, or an array of the type
of the first element. -/
def inferredType (value : Node) : Option String :=
  if value.kind == "new_expression" then
    match value.field? "constructor" with
    | some constructor =>
      if constructor.kind == "identifier" || constructor.kind == "member_expression" then
        some (lastSegment constructor.text)
      else none
    | none => none
  else if value.kind == "array" then
    match _h : value.named with
    | element :: _ =>
      match inferredType element with
      | some type => if type.isEmpty then none else some (type ++ "[]")
      | none => none
    | [] => none
  else none
termination_by value
decreasing_by
  exact Node.sizeOf_lt_of_mem_children
    (Node.mem_children_of_mem_named (_h ▸ List.mem_cons_self))

/-! ## Classes -/

/-- A member of a class as it is read. -/
inductive Member where
  | property (p : Property)
  | method (m : Method)
  | constructor (parameters : List Parameter)

/-- The field that a node of a class body declares. -/
def property (node : Node) : Property :=
  let name := node.firstField? ["name", "property"]
  let isPrivate := (name.map (·.kind)) == some "private_property_identifier"
  let type := match typeNote (node.field? "type") with
    | some type => some type
    | none => (node.field? "value").bind inferredType
  let (isArray, isClassType) := Annotation.describe type
  { name := stripPrivateMark (Node.textOf name)
    type
    visibility := if isPrivate then .priv else visibility node
    isArray
    isClassType
    isStatic := node.hasToken "static"
    isReadonly := node.hasToken "readonly"
    line := node.line }

/-- The member that a node of a class body declares. -/
def member? (node : Node) : Option Member :=
  if node.kind == "public_field_definition" || node.kind == "field_definition" then
    some (.property (property node))
  else if node.kind == "method_definition" || node.kind == "abstract_method_signature" then
    let name := node.fieldText "name"
    let parameters := parameters (node.field? "parameters")
    if name == "constructor" then some (.constructor parameters)
    else
      some (.method
        { name
          parameters
          returnType := typeNote (node.field? "return_type")
          visibility := visibility node
          isStatic := node.hasToken "static"
          isAbstract := node.kind == "abstract_method_signature" || node.hasToken "abstract"
          isAsync := node.hasToken "async"
          line := node.line })
  else none

/-- The heritage of a class after one more clause: what it extends, and what it implements. -/
def addHeritage (heritage : Option String × List String) (clause : Node) :
    Option String × List String :=
  let isName (n : Node) : Bool := n.kind == "identifier" || n.kind == "member_expression"
  if clause.kind == "extends_clause" then
    let value := match clause.field? "value" with
      | some value => some value
      | none => clause.named.head?
    match value with
    | some value => if isName value then (some (lastSegment value.text), heritage.2) else heritage
    | none => heritage
  else if clause.kind == "implements_clause" then
    (heritage.1, heritage.2 ++ clause.named.map fun type => typeHead type.text)
  else if heritage.1.isNone && isName clause then (some (lastSegment clause.text), heritage.2)
  else heritage

/-- The class that a node declares. One without a name takes the default name, if there is any. -/
def classDecl? (path : String) (node : Node) (defaultName : Option String) : Option ClassDecl :=
  match (nonempty? (node.fieldText "name")).or defaultName with
  | none => none
  | some name =>
    let clauses := match node.child? ["class_heritage"] with
      | some heritage => heritage.named
      | none => []
    let heritage := clauses.foldl addHeritage (none, [])
    let members := match node.field? "body" with
      | some body => body.named.filterMap member?
      | none => []
    some
      { name
        properties := members.filterMap fun | .property p => some p | _ => none
        methods := members.filterMap fun | .method m => some m | _ => none
        base := heritage.1
        implements := heritage.2
        constructorParameters :=
          (members.filterMap fun | .constructor ps => some ps | _ => none).getLast?
        line := node.line
        isAbstract := node.kind == "abstract_class_declaration" || node.hasToken "abstract"
        path }

/-! ## Interfaces, functions, variables -/

/-- The field that a node of an interface body declares. -/
def signatureProperty? (node : Node) : Option Property :=
  if node.kind == "property_signature" then
    let type := typeNote (node.field? "type")
    let (isArray, isClassType) := Annotation.describe type
    some
      { name := node.fieldText "name", type, isArray, isClassType
        isReadonly := node.hasToken "readonly", line := node.line }
  else none

/-- The method that a node of an interface body declares. -/
def signatureMethod? (node : Node) : Option Method :=
  if node.kind == "method_signature" then
    some
      { name := node.fieldText "name"
        parameters := parameters (node.field? "parameters")
        returnType := typeNote (node.field? "return_type")
        isAbstract := true
        line := node.line }
  else none

/-- The interface that a node declares. -/
def interfaceDecl? (path : String) (node : Node) : Option InterfaceDecl :=
  (nonempty? (node.fieldText "name")).map fun name =>
    let members := match node.field? "body" with
      | some body => body.named
      | none => []
    { name
      properties := members.filterMap signatureProperty?
      methods := members.filterMap signatureMethod?
      bases := match node.child? ["extends_type_clause", "extends_clause"] with
        | some clause => clause.named.map fun type => typeHead type.text
        | none => []
      line := node.line
      path }

/-- What a function declaration adds. -/
def functionDeclared (isExported : Bool) (node : Node) : Declared :=
  match nonempty? (node.fieldText "name") with
  | none => {}
  | some name =>
    { functions :=
        [{ name
           parameters := parameters (node.field? "parameters")
           returnType := typeNote (node.field? "return_type")
           isExported
           isAsync := node.hasToken "async"
           line := node.line }]
      names := [(name, "function")] }

/-- What one variable of a declaration adds. A variable that holds a function counts as one. -/
def variableDeclared (isExported : Bool) (node : Node) : Declared :=
  match node.field? "name" with
  | none => {}
  | some nameNode =>
    if nameNode.kind != "identifier" then {}
    else
      let name := nameNode.text
      let isFunction (value : Node) : Bool :=
        ["arrow_function", "function_expression", "function", "generator_function"].contains
          value.kind
      match (node.field? "value").filter isFunction with
      | none => { names := [(name, "variable")] }
      | some value =>
        let parameters := match value.field? "parameters", value.field? "parameter" with
          | some list, _ => parameters (some list)
          | none, some single => [{ name := single.text }]
          | none, none => []
        { functions :=
            [{ name
               parameters
               returnType := typeNote (value.field? "return_type")
               isExported
               isAsync := value.hasToken "async"
               line := node.line }]
          names := [(name, "function")] }

/-- What a declaration adds. -/
def declared (path : String) (isExported : Bool) (node : Node) : Declared :=
  if node.kind == "class_declaration" || node.kind == "abstract_class_declaration" then
    match classDecl? path node none with
    | some c => { classes := [c], names := [(c.name, "class")] }
    | none => {}
  else if node.kind == "interface_declaration" then
    match interfaceDecl? path node with
    | some i => { classes := [i.asClass], interfaces := [i], names := [(i.name, "interface")] }
    | none => {}
  else if node.kind == "enum_declaration" then
    match nonempty? (node.fieldText "name") with
    | some name => { classes := [{ name, line := node.line, path }], names := [(name, "enum")] }
    | none => {}
  else if node.kind == "type_alias_declaration" then
    match nonempty? (node.fieldText "name") with
    | some name => { names := [(name, "type")] }
    | none => {}
  else if node.kind == "function_declaration" || node.kind == "generator_function_declaration" then
    functionDeclared isExported node
  else if node.kind == "lexical_declaration" || node.kind == "variable_declaration" then
    .concat ((node.childrenOf "variable_declarator").map (variableDeclared isExported))
  else {}

/-! ## Exports -/

/-- The names that an export clause offers, each under its alias if it has one. -/
def exportedNames (clause : Node) : List String :=
  (clause.childrenOf "export_specifier").map fun spec =>
    Node.textOf (spec.firstField? ["alias", "name"])

/-- The names that a re-export offers, a star for all of another module. -/
def reExportedNames (node : Node) : List String :=
  match node.child? ["namespace_export"], node.child? ["export_clause"] with
  | some all, _ =>
    match all.named.getLast? with
    | some name => [name.text]
    | none => ["*"]
  | none, some clause => exportedNames clause
  | none, none => ["*"]

/-- What an export statement declares, and what it exports. -/
def exportStatement (path : String) (node : Node) : Declared × List Export :=
  let line := node.line
  match node.field? "declaration", node.field? "source", node.child? ["export_clause"],
      node.field? "value" with
  | some declaration, _, _, _ =>
    let found := declared path true declaration
    let isDefault := node.hasToken "default"
    (found, found.names.map fun (name, kind) => { name, kind, isDefault, line })
  | none, some source, _, _ =>
    let source := some (stripQuotes source.text)
    ({}, (reExportedNames node).map fun name =>
      { name, kind := "re-export", isReExport := true, source, line })
  | none, none, some clause, _ =>
    ({}, (exportedNames clause).map fun name => { name, kind := "named", line })
  | none, none, none, some value =>
    let offer (name : String) : List Export := [{ name, kind := "default", isDefault := true, line }]
    if value.kind == "identifier" then ({}, offer value.text)
    else if value.kind == "class" then
      match classDecl? path value (some "default") with
      | some c => ({ classes := [c] }, offer c.name)
      | none => ({}, offer "default")
    else ({}, offer "default")
  | none, none, none, none => ({}, [])

/-- What a statement declares, and what it exports. -/
def statement (path : String) (node : Node) : Declared × List Export :=
  if node.kind == "export_statement" then exportStatement path node
  else if node.kind == "import_statement" then ({}, [])
  else (declared path false node, [])

/-! ## Imports -/

/-- The forms in which a module is imported. -/
inductive ImportForm where
  | statement
  | reExport
  | call
  deriving DecidableEq

/-- Import statements, exports from another module, and calls whose first argument is a string. -/
def importQuery (site : Site) : Option ImportForm :=
  let node := site.node
  if !node.label.isNamed then none
  else if node.kind == "import_statement" then some .statement
  else if node.kind == "export_statement" then
    if (node.fields "source").any (·.kind == "string") then some .reExport else none
  else if node.kind == "call_expression" then
    let opensWithString (list : Node) : Bool :=
      list.kind == "arguments" && (list.named.head?.map (·.kind)) == some "string"
    if (node.fields "arguments").any opensWithString then some .call else none
  else none

/-- One part of an import clause: a default name, a namespace, or a list of names. -/
def addClausePart (i : Import) (part : Node) : Import :=
  if part.kind == "identifier" then { i.addSpecifier part.text with isDefault := true }
  else if part.kind == "namespace_import" then
    { i with isNamespace := true
             asName := nonempty? (Node.textOf (part.child? ["identifier"])) }
  else if part.kind == "named_imports" then
    i.addSpecifiers ((part.childrenOf "import_specifier").map (·.fieldText "name"))
  else i

/-- The import of an import statement. -/
def importStatement? (node : Node) : Option Import :=
  let required := node.child? ["import_require_clause"]
  let source := match node.field? "source" with
    | some source => some source
    | none => required.bind fun clause =>
        match clause.field? "source" with
        | some source => some source
        | none => clause.child? ["string"]
  source.map fun source =>
    let i : Import :=
      { source := stripQuotes source.text, isTypeOnly := node.hasToken "type", line := node.line }
    let i := match required with
      | some clause =>
        { i.addSpecifier (Node.textOf (clause.child? ["identifier"])) with isDefault := true }
      | none => i
    match node.child? ["import_clause"] with
    | some clause => clause.named.foldl addClausePart i
    | none => i

/-- The import that a re-export is at the same time. -/
def reExportImport (node : Node) : Import :=
  let i : Import :=
    { source := stripQuotes (node.fieldText "source")
      isNamespace := (node.child? ["export_clause"]).isNone
      line := node.line }
  i.addSpecifiers ((reExportedNames node).filter (· != "*"))

/-- Adds the names that the variable takes which an imported module is bound to. -/
def addBinding (i : Import) (declarator : Node) : Import :=
  match declarator.field? "name" with
  | none => i
  | some target =>
    if target.kind == "identifier" then { i.addSpecifier target.text with isDefault := true }
    else if target.kind == "object_pattern" then
      i.addSpecifiers (((target.walk []).filter
        (·.kind == "shorthand_property_identifier_pattern")).map (·.text))
    else i

/-- The import of a call of `require` or `import`. -/
def importCall? (site : Site) : Option Import :=
  let node := site.node
  match node.field? "function", (node.field? "arguments").bind (·.named.head?) with
  | some function, some first =>
    if (function.kind == "import" || function.text == "require") && first.kind == "string" then
      let i : Import :=
        { source := stripQuotes first.text, isDynamic := true, line := node.line }
      match site.above.dropWhile (·.kind == "await_expression") with
      | declarator :: _ =>
        some (if declarator.kind == "variable_declarator" then addBinding i declarator else i)
      | [] => some i
    else none
  | _, _ => none

/-- The import of a captured node. -/
def importOf? (capture : Capture ImportForm) : Option Import :=
  match capture.tag with
  | .statement => importStatement? capture.node
  | .reExport => some (reExportImport capture.node)
  | .call => importCall? capture.site

/-! ## Files -/

/-- The outline of a script file. -/
def outline (language : Language) (path : String) (root : Node) : Outline :=
  let statements := root.named.map (statement path)
  let found := Declared.concat (statements.map (·.1))
  { language, path
    classes := found.classes
    interfaces := found.interfaces
    functions := found.functions
    imports := (root.captures importQuery).filterMap importOf?
    exports := statements.flatMap (·.2)
    tree := some root }

end CodeAtlas.Outline.Script
