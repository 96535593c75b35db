import CodeAtlas.Text.Slice
import CodeAtlas.Text.Uppercase
import CodeAtlas.Text.Word

/-!
# Names of types

Every name that a type annotation comes down to falls into one category. Only names of the
category `declared` can stand for a class of the project, so only they take part in relationships.
-/

namespace CodeAtlas.TypeName

/-! ## Tables -/

/-- Names that say nothing about a value. -/
def untypedNames : List String :=
  ["any", "unknown", "Any", "object", "Object", "var", "auto"]

/-- Names of values that are built into a language. -/
def primitiveNames : List String :=
  ["string", "number", "boolean", "null", "undefined", "void", "never", "bigint", "symbol",
   "int", "long", "short", "byte", "float", "double", "char", "str", "bool", "bytes",
   "bytearray", "complex", "None", "NoneType"]

/-- Names of containers and of types that every standard library brings along. -/
def builtinNames : List String :=
  ["Array", "ReadonlyArray", "Map", "ReadonlyMap", "Set", "ReadonlySet", "WeakMap", "WeakSet",
   "Promise", "Date", "RegExp", "Error", "String", "Number", "Boolean", "Symbol", "Function",
   "Record", "Partial", "Required", "Readonly", "Pick", "Omit", "Iterable", "Iterator",
   "AsyncIterable", "Generator", "AsyncGenerator", "Buffer", "JSON", "Math", "console",
   "Integer", "Long", "Short", "Byte", "Double", "Float", "Character", "Void", "List",
   "ArrayList", "LinkedList", "HashMap", "TreeMap", "LinkedHashMap", "ConcurrentHashMap",
   "HashSet", "TreeSet", "LinkedHashSet", "Collection", "Optional", "Stream",
   "CompletableFuture", "Future", "BigDecimal", "BigInteger", "LocalDate", "LocalDateTime",
   "Instant", "UUID", "Exception", "RuntimeException", "Throwable", "StringBuilder", "Class",
   "list", "dict", "set", "frozenset", "tuple", "type", "Dict", "Tuple", "FrozenSet", "Union",
   "Callable", "Sequence", "MutableSequence", "Mapping", "MutableMapping", "Type", "ClassVar",
   "Final", "Literal", "Awaitable", "Coroutine", "Generic", "Protocol", "Annotated", "Path",
   "Decimal", "datetime", "date", "Enum", "ABC", "TypeVar", "Self"]

/-- Names of types with one parameter whose values are collections of it. -/
def containerNames : List String :=
  ["Array", "ReadonlyArray", "List", "ArrayList", "LinkedList", "Set", "HashSet", "TreeSet",
   "LinkedHashSet", "ReadonlySet", "Collection", "Iterable", "Iterator", "Sequence",
   "MutableSequence", "Stream", "list", "set", "frozenset", "FrozenSet", "AbstractSet", "Deque",
   "deque"]

/-- Names of types with a first parameter whose values stand for a value of it. -/
def wrapperNames : List String :=
  ["Promise", "Optional", "CompletableFuture", "Future", "Awaitable", "Readonly", "Partial",
   "Required", "ClassVar", "Final", "Annotated", "Type", "type"]

/-- Names that stand for the absence of a value in a union. -/
def nullishNames : List String :=
  ["null", "undefined", "None", "void", "NoneType"]

/-! ## Categories -/

/-- The category of a name. -/
inductive Category where
  | untyped
  | primitive
  | builtin
  | declared
  | other
  deriving DecidableEq, Repr, Inhabited

/-- The category in one word. -/
def Category.name : Category → String
  | untyped => "untyped"
  | primitive => "primitive"
  | builtin => "builtin"
  | declared => "class"
  | other => "other"

/-- A character that may open an identifier. -/
def isIdentifierStart (c : Char) : Bool :=
  c.isAlpha || c == '_' || c == '$'

/-- A character inside an identifier. -/
def isIdentifierChar (c : Char) : Bool :=
  Text.isWord c || c == '$'

/-- An identifier: an ASCII letter, low line or dollar sign, and then word characters and dollar
signs. -/
def isIdentifier : List Char → Bool
  | [] => false
  | c :: rest => isIdentifierStart c && rest.all isIdentifierChar

/-- Whether the first character after the low lines and dollar signs in front is a capital
letter. -/
def isCapitalised (cs : List Char) : Bool :=
  match cs.dropWhile (fun c => c == '_' || c == '$') with
  | [] => false
  | c :: _ => Text.isUpper c

/-- The category of a name. The tables come first; of the other names the capitalised identifiers
are taken for declared types. A line feed at the end does not keep a name from being an
identifier. -/
def classify (name : String) : Category :=
  if name.isEmpty || untypedNames.contains name then .untyped
  else if primitiveNames.contains name then .primitive
  else if builtinNames.contains name then .builtin
  else if isIdentifier (Text.dropFinalNewline name.toList) && isCapitalised name.toList then
    .declared
  else .other

/-- Whether a name may stand for a declared type. -/
def isDeclared (name : String) : Bool :=
  classify name == .declared

/-- Whether a name follows the convention for interfaces: `I` and another capital letter. -/
def isInterfaceName (name : String) : Bool :=
  match name.toList with
  | 'I' :: c :: _ => 'A' ≤ c && c ≤ 'Z'
  | _ => false

end CodeAtlas.TypeName
