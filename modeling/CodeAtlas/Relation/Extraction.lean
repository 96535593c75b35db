import CodeAtlas.Annotation
import CodeAtlas.Outline.Basic
import CodeAtlas.Relation.Basic

/-!
# Relationships of a file

Every annotation of a class that comes down to the name of a declared type gives a relationship,
depending on where it stands. A field gives exactly one of composition, aggregation and
association, or none if it is protected, static and no collection.
-/

namespace CodeAtlas

/-! ## Resolved types -/

/-- An annotation seen among the imports of its file. -/
structure ResolvedType where
  name : String
  isArray : Bool
  isPrimitive : Bool
  /-- Whether the name may stand for a declared type. -/
  isClassType : Bool
  /-- Whether the name follows the convention for interfaces. -/
  isInterfaceType : Bool
  /-- The module that the name is imported from. -/
  sourceModule : Option String
  /-- The type arguments as written. -/
  arguments : List String
  deriving DecidableEq, Repr, Inhabited

namespace ResolvedType

/-- Whether the type is imported. -/
def isExternal (type : ResolvedType) : Bool :=
  type.sourceModule.isSome

/-- The module of the first import that lists a name. -/
def importSource? (imports : List Import) (name : String) : Option String :=
  (imports.find? (·.specifiers.contains name)).map (·.source)

/-- What an annotation resolves to, nothing if it leaves the type open. -/
def ofAnnotation? (imports : List Import) (written : Option String) : Option ResolvedType :=
  match written.bind Annotation.core? with
  | none => none
  | some core =>
    let category := TypeName.classify core.name
    if category == .untyped then none
    else
      let isClassType := category == .declared
      some
        { name := core.name
          isArray := core.isArray
          isPrimitive := category == .primitive
          isClassType
          isInterfaceType := isClassType && TypeName.isInterfaceName core.name
          sourceModule := importSource? imports core.name
          arguments := core.arguments }

/-- What an annotation resolves to if that may be a declared type. -/
def classType? (imports : List Import) (written : Option String) : Option ResolvedType :=
  (ofAnnotation? imports written).filter (·.isClassType)

end ResolvedType

/-! ## Extraction -/

namespace Relation

/-- The relationship of a class to a type. -/
def between (c : ClassDecl) (type : ResolvedType) (kind : RelationKind)
    (cardinality : Option String) (line : Int) (context : String) : Relation :=
  { source := c.name, target := type.name, kind, cardinality, line, context
    isExternal := type.isExternal, sourceModule := type.sourceModule }

/-- Whether a field with a class type shows a relationship of a kind. Each kind asks for itself what
the field is like. -/
def isShown (kind : RelationKind) (p : Property) (type : ResolvedType) : Bool :=
  match kind with
  | .composition => !type.isArray && (p.visibility == .priv || !p.isStatic)
  | .aggregation => type.isArray
  | .association => !type.isArray && (p.visibility == .pub && p.isStatic)
  | .dependency | .injection => false

/-- How many a field of a kind of relationship holds. -/
def fieldCardinality (kind : RelationKind) : String :=
  if kind == .aggregation then "*" else "1"

/-- The relationships of one kind that the fields of a class give. -/
def ofFields (kind : RelationKind) (imports : List Import) (c : ClassDecl) : List Relation :=
  c.properties.filterMap fun p =>
    match ResolvedType.classType? imports p.type with
    | none => none
    | some type =>
      if isShown kind p type then
        some (between c type kind (some (fieldCardinality kind)) p.line p.name)
      else none

/-- The relationships that one method gives: one for each parameter, and one for the result. -/
def ofMethod (imports : List Import) (c : ClassDecl) (m : Method) : List Relation :=
  let taken := m.parameters.filterMap fun p =>
    (ResolvedType.classType? imports p.type).map fun type =>
      between c type .dependency none m.line s!"{m.name}({p.name})"
  let returned := (ResolvedType.classType? imports m.returnType).map fun type =>
    between c type .dependency none m.line s!"{m.name}() returns {type.name}"
  taken ++ returned.toList

/-- The relationships that the methods of a class give. -/
def ofMethods (imports : List Import) (c : ClassDecl) : List Relation :=
  c.methods.flatMap (ofMethod imports c)

/-- The relationships that the constructor of a class gives. -/
def ofConstructor (imports : List Import) (c : ClassDecl) : List Relation :=
  (c.constructorParameters.getD []).filterMap fun p =>
    (ResolvedType.classType? imports p.type).map fun type =>
      between c type .injection none c.line s!"constructor({p.name})"

end Relation

/-- The subclasses of every base among some classes. -/
def Inheritance.ofClasses (classes : List ClassDecl) : Inheritance :=
  classes.foldl (fun map c =>
    match c.base with
    | some base => if base.isEmpty then map else map.insert base c.name
    | none => map) []

/-- The relationships of a file by kind, and its inheritance. -/
structure RelationReport where
  compositions : List Relation
  aggregations : List Relation
  dependencies : List Relation
  associations : List Relation
  injections : List Relation
  inheritance : Inheritance
  deriving Repr, Inhabited

namespace RelationReport

/-- The relationships of an outline. -/
def ofOutline (o : Outline) : RelationReport :=
  { compositions := o.classes.flatMap (Relation.ofFields .composition o.imports)
    aggregations := o.classes.flatMap (Relation.ofFields .aggregation o.imports)
    dependencies := o.classes.flatMap (Relation.ofMethods o.imports)
    associations := o.classes.flatMap (Relation.ofFields .association o.imports)
    injections := o.classes.flatMap (Relation.ofConstructor o.imports)
    inheritance := Inheritance.ofClasses o.classes }

/-- All relationships. -/
def relations (r : RelationReport) : List Relation :=
  r.compositions ++ r.aggregations ++ r.dependencies ++ r.associations ++ r.injections

/-- The number of relationships of a kind. -/
def count (r : RelationReport) (kind : RelationKind) : Nat :=
  r.relations.countP (·.kind == kind)

end RelationReport

end CodeAtlas
