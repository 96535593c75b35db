import CodeAtlas.Text.Utf8

/-!
# Syntax trees

A concrete syntax tree of a source file, as a grammar engine delivers it. Every node carries its
kind, the field it fills in its parent, its span in bytes, and the text and line of that span.
Keywords and punctuation are nodes too; their kind is their text, and they are not named.
-/

namespace CodeAtlas.Syntax

/-- What a node holds apart from its children. -/
structure Label where
  /-- Number of the node in its tree, for telling nodes apart. -/
  id : Nat
  /-- Kind of the node. -/
  kind : String
  /-- Field that the node fills in its parent. -/
  field : Option String
  /-- Whether the node stands for a rule of the grammar and not for a bare token. -/
  isNamed : Bool
  /-- Whether the node covers text that no rule fits. -/
  isError : Bool
  /-- Whether the node stands for a token that the text lacks. -/
  isMissing : Bool
  /-- Whether the node or a node below it is an error or missing. -/
  hasError : Bool
  /-- Offset of the first byte. -/
  start : Nat
  /-- Offset after the last byte. -/
  stop : Nat
  /-- Line of the first byte, counted from one. -/
  line : Nat
  /-- The text of the span. -/
  text : String
  deriving Inhabited

/-- A node with its children. -/
inductive Node where
  | node (label : Label) (children : List Node)
  deriving Inhabited

namespace Node

/-! ## Parts -/

def label : Node → Label
  | node l _ => l

def children : Node → List Node
  | node _ cs => cs

def id (n : Node) : Nat := n.label.id

def kind (n : Node) : String := n.label.kind

def text (n : Node) : String := n.label.text

def line (n : Node) : Nat := n.label.line

def start (n : Node) : Nat := n.label.start

def stop (n : Node) : Nat := n.label.stop

/-- Two references to one node of a tree. -/
def same (a b : Node) : Bool := a.id == b.id

/-! ## Children -/

/-- The children that stand for rules of the grammar. -/
def named (n : Node) : List Node :=
  n.children.filter (·.label.isNamed)

/-- The first child in a field. -/
def field? (n : Node) (name : String) : Option Node :=
  n.children.find? (·.label.field == some name)

/-- All children in a field. -/
def fields (n : Node) (name : String) : List Node :=
  n.children.filter (·.label.field == some name)

/-- The first child in the first of some fields that has any. -/
def firstField? (n : Node) (names : List String) : Option Node :=
  names.findSome? n.field?

/-- The first child of one of some kinds. -/
def child? (n : Node) (kinds : List String) : Option Node :=
  n.children.find? fun c => kinds.contains c.kind

/-- All children of a kind. -/
def childrenOf (n : Node) (kind : String) : List Node :=
  n.children.filter (·.kind == kind)

/-- Whether a keyword is among the children. -/
def hasToken (n : Node) (token : String) : Bool :=
  n.children.any (·.kind == token)

/-- The text of a node that may be absent. -/
def textOf : Option Node → String
  | none => ""
  | some n => n.text

/-- The text of the first child in a field, empty if there is none. -/
def fieldText (n : Node) (name : String) : String :=
  textOf (n.field? name)

/-! ## Sizes -/

theorem sizeOf_lt_of_mem_children {n c : Node} (h : c ∈ n.children) : sizeOf c < sizeOf n := by
  cases n with
  | node l cs =>
    have := List.sizeOf_lt_of_mem (show c ∈ cs from h)
    simp only [node.sizeOf_spec]
    omega

theorem mem_children_of_mem_named {n c : Node} (h : c ∈ n.named) : c ∈ n.children :=
  (List.mem_filter.1 h).1

theorem mem_children_of_field? {n c : Node} {name : String} (h : n.field? name = some c) :
    c ∈ n.children :=
  List.mem_of_find?_eq_some h

theorem mem_children_of_child? {n c : Node} {kinds : List String}
    (h : n.child? kinds = some c) : c ∈ n.children :=
  List.mem_of_find?_eq_some h

end Node

/-! ## Nodes of a source text -/

/-- The bytes of a source file. -/
structure Source where
  bytes : List UInt8

namespace Source

/-- The bytes of a text. -/
def ofString (text : String) : Source :=
  ⟨text.toUTF8.toList⟩

/-- The text between two offsets. -/
def slice (source : Source) (start stop : Nat) : String :=
  String.ofList (Text.decodeLossy ((source.bytes.drop start).take (stop - start)))

/-- The line that an offset lies in: one more than the line feeds before it. -/
def lineAt (source : Source) (offset : Nat) : Nat :=
  (source.bytes.take offset).count 10 + 1

/-- A node over a span of the source, given what the grammar engine says of it. -/
def node (source : Source) (id : Nat) (kind : String) (field : Option String)
    (isNamed isError isMissing hasError : Bool) (start stop : Nat) (children : List Node) : Node :=
  .node
    { id, kind, field, isNamed, isError, isMissing, hasError, start, stop,
      line := source.lineAt start, text := source.slice start stop }
    children

end Source

end CodeAtlas.Syntax
