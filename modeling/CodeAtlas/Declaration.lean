/-!
# Declarations

What a source file declares, imports and exports, in one form for all languages.
-/

namespace CodeAtlas

/-! ## Enumerations -/

/-- Who may use a member. -/
inductive Visibility where
  | pub
  | prot
  | priv
  deriving DecidableEq, Repr, Inhabited

/-- The name of a visibility. -/
def Visibility.name : Visibility → String
  | pub => "public"
  | prot => "protected"
  | priv => "private"

/-- The visibility of a name. -/
def Visibility.ofName? (s : String) : Option Visibility :=
  [pub, prot, priv].find? (·.name == s)

/-- Whether a declaration is a class or an interface. Enumerations and records are classes. -/
inductive ClassKind where
  | cls
  | interface
  deriving DecidableEq, Repr, Inhabited

/-- The name of a kind of class. -/
def ClassKind.name : ClassKind → String
  | cls => "class"
  | interface => "interface"

/-- The kind of class of a name. -/
def ClassKind.ofName? (s : String) : Option ClassKind :=
  [cls, interface].find? (·.name == s)

/-! ## Members -/

/-- A parameter of a function, method or constructor. -/
structure Parameter where
  name : String
  /-- Type annotation as written. -/
  type : Option String := none
  /-- Whether a call may leave it out. -/
  isOptional : Bool := false
  /-- Whether it declares a property of the class at the same time. -/
  isProperty : Bool := false
  /-- Visibility of that property. -/
  visibility : Option Visibility := none
  deriving DecidableEq, Repr, Inhabited

/-- A field of a class. -/
structure Property where
  name : String
  type : Option String := none
  visibility : Visibility := .pub
  /-- Whether its type is a collection. -/
  isArray : Bool := false
  /-- Whether its type comes down to the name of a declared type. -/
  isClassType : Bool := false
  isStatic : Bool := false
  isReadonly : Bool := false
  line : Int := 0
  deriving DecidableEq, Repr, Inhabited

/-- A method of a class. Constructors are kept apart. -/
structure Method where
  name : String
  parameters : List Parameter := []
  returnType : Option String := none
  visibility : Visibility := .pub
  isStatic : Bool := false
  isAbstract : Bool := false
  isAsync : Bool := false
  line : Int := 0
  deriving DecidableEq, Repr, Inhabited

/-! ## Top-level declarations -/

/-- A function outside classes. -/
structure FunctionDecl where
  name : String
  parameters : List Parameter := []
  returnType : Option String := none
  isExported : Bool := false
  isAsync : Bool := false
  line : Int := 0
  deriving DecidableEq, Repr, Inhabited

/-- A class, or the class form of an interface. -/
structure ClassDecl where
  name : String
  kind : ClassKind := .cls
  properties : List Property := []
  methods : List Method := []
  /-- The base that it extends, the first if there are several. -/
  base : Option String := none
  /-- The other bases. -/
  implements : List String := []
  /-- The parameters of the constructor, if one is declared. -/
  constructorParameters : Option (List Parameter) := none
  line : Int := 0
  isAbstract : Bool := false
  path : String := ""
  deriving DecidableEq, Repr, Inhabited

/-- What tells a class from the classes of all files. -/
def ClassDecl.key (c : ClassDecl) : String × String :=
  (c.path, c.name)

/-- An interface. -/
structure InterfaceDecl where
  name : String
  properties : List Property := []
  methods : List Method := []
  /-- What it extends. -/
  bases : List String := []
  line : Int := 0
  path : String := ""
  deriving DecidableEq, Repr, Inhabited

/-- The class form of an interface: its first base is extended, the others are implemented. -/
def InterfaceDecl.asClass (i : InterfaceDecl) : ClassDecl :=
  { name := i.name, kind := .interface, properties := i.properties, methods := i.methods,
    base := i.bases.head?, implements := i.bases.tail, line := i.line, path := i.path }

/-! ## Imports and exports -/

/-- An import of another module. -/
structure Import where
  /-- The module as written. -/
  source : String
  /-- The imported names. -/
  specifiers : List String := []
  isDefault : Bool := false
  isNamespace : Bool := false
  /-- The name that the whole module is imported under. -/
  asName : Option String := none
  isTypeOnly : Bool := false
  isDynamic : Bool := false
  line : Int := 0
  deriving DecidableEq, Repr, Inhabited

/-- Adds an imported name, unless it is empty or there already. -/
def Import.addSpecifier (i : Import) (name : String) : Import :=
  if name.isEmpty || i.specifiers.contains name then i
  else { i with specifiers := i.specifiers ++ [name] }

/-- Adds several imported names. -/
def Import.addSpecifiers (i : Import) (names : List String) : Import :=
  names.foldl addSpecifier i

/-- A name that a file offers to others. -/
structure Export where
  name : String
  /-- What is exported, in one word. -/
  kind : String := "declaration"
  isDefault : Bool := false
  isReExport : Bool := false
  source : Option String := none
  line : Int := 0
  deriving DecidableEq, Repr, Inhabited

end CodeAtlas
