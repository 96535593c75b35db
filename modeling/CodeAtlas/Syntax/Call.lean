import CodeAtlas.Language.Basic
import CodeAtlas.Syntax.Capture
import CodeAtlas.Syntax.Name

/-!
# The syntax of calls

What the analysis of calls needs to know of a grammar: which nodes open scopes, call, construct and
assign, and how a chain of member accesses is read as names.
-/

namespace CodeAtlas.Syntax

/-! ## Tables -/

/-- Why a node matters for calls. -/
inductive CallTag where
  /-- It is the body of a class. -/
  | classScope
  /-- It is a function, method or lambda. -/
  | callableScope
  /-- It is a call. -/
  | call
  /-- It is a constructor call with a keyword of its own. -/
  | new
  /-- It is an assignment. -/
  | assign
  /-- It declares a variable. -/
  | declare
  deriving DecidableEq, Repr, Inhabited

/-- The tag in words. -/
def CallTag.name : CallTag → String
  | classScope => "scope.class"
  | callableScope => "scope.callable"
  | call => "call"
  | new => "new"
  | assign => "assign"
  | declare => "declare"

/-- How a grammar writes calls. -/
structure CallSyntax where
  /-- The kinds of nodes under each tag. -/
  tags : List (CallTag × List String)
  /-- Kinds of calls. -/
  callKinds : List String
  /-- Kinds of constructor calls. Without any, the call of a class constructs it. -/
  newKinds : List String
  /-- Kinds of nodes that wait for a call. -/
  awaitKinds : List String
  /-- Names of the object that a method runs on. -/
  receivers : List String
  /-- Whether members can be used without naming that object. -/
  implicitMembers : Bool

namespace CallSyntax

/-- The callables, calls, constructor calls and assignments that both script grammars share. -/
def scriptTags : List (CallTag × List String) :=
  [(.callableScope,
     ["method_definition", "function_declaration", "generator_function_declaration",
      "arrow_function", "function_expression", "generator_function"]),
   (.call, ["call_expression"]),
   (.new, ["new_expression"]),
   (.assign, ["assignment_expression"]),
   (.declare, ["variable_declarator"])]

/-- Calls in script files whose classes are of the given kinds. -/
def script (classKinds : List String) : CallSyntax :=
  { tags := (.classScope, classKinds) :: scriptTags
    callKinds := ["call_expression"]
    newKinds := ["new_expression"]
    awaitKinds := ["await_expression"]
    receivers := ["this"]
    implicitMembers := false }

/-- Calls in Java files. -/
def java : CallSyntax :=
  { tags :=
      [(.classScope,
         ["class_declaration", "interface_declaration", "enum_declaration",
          "record_declaration"]),
       (.callableScope, ["method_declaration", "constructor_declaration", "lambda_expression"]),
       (.call, ["method_invocation"]),
       (.new, ["object_creation_expression"]),
       (.assign, ["assignment_expression"]),
       (.declare, ["variable_declarator"])]
    callKinds := ["method_invocation"]
    newKinds := ["object_creation_expression"]
    awaitKinds := []
    receivers := ["this"]
    implicitMembers := true }

/-- Calls in Python files. -/
def python : CallSyntax :=
  { tags :=
      [(.classScope, ["class_definition"]),
       (.callableScope, ["function_definition", "lambda"]),
       (.call, ["call"]),
       (.assign, ["assignment"])]
    callKinds := ["call"]
    newKinds := []
    awaitKinds := ["await"]
    receivers := ["self", "cls"]
    implicitMembers := false }

/-- How the grammar of a language writes calls. -/
def ofLanguage? : Language → Option CallSyntax
  | .typescript => some (script ["class_declaration", "abstract_class_declaration", "class"])
  | .javascript => some (script ["class_declaration", "class"])
  | .java => some java
  | .python => some python
  | .go => none

end CallSyntax

/-! ## Chains -/

/-- The kinds of nodes that a chain of names goes through. -/
inductive Link where
  /-- A member of what the next node stands for. -/
  | member (name : String) (next : Option Node)
  /-- The same as the next node. -/
  | same (next : Option Node)
  /-- A name at the root. -/
  | root (name : String)
  /-- Nothing that has a name. -/
  | nameless

/-- What a node is in a chain. -/
def Node.link (node : Node) : Link :=
  if ["member_expression", "field_access", "attribute"].contains node.kind then
    .member (stripPrivateMark (textOf (node.firstField? ["property", "field", "attribute"])))
      (node.field? "object")
  else if node.kind == "method_invocation" then
    .member (node.fieldText "name") (node.field? "object")
  else if node.kind == "call_expression" || node.kind == "call" then
    .same (node.field? "function")
  else if ["identifier", "this", "super", "type_identifier", "property_identifier"].contains
      node.kind then .root node.text
  else if node.kind == "scoped_identifier" || node.kind == "scoped_type_identifier" then
    .root (lastSegment node.text)
  else if ["parenthesized_expression", "non_null_expression", "await_expression", "await",
      "as_expression"].contains node.kind then
    match node.named with
    | inner :: _ => .same (some inner)
    | [] => .nameless
  else .nameless

/-- The node that a link goes on to. -/
def Link.next? : Link → Option Node
  | .member _ next => next
  | .same next => next
  | _ => none

theorem Node.sizeOf_lt_of_link {node next : Node} (h : node.link.next? = some next) :
    sizeOf next < sizeOf node := by
  have hfield {name : String} (hf : node.field? name = some next) : sizeOf next < sizeOf node :=
    sizeOf_lt_of_mem_children (mem_children_of_field? hf)
  unfold link at h
  split at h
  · exact hfield h
  · split at h
    · exact hfield h
    · split at h
      · exact hfield h
      · split at h
        · cases h
        · split at h
          · cases h
          · split at h
            · split at h
              · rename_i inner rest hn
                cases h
                exact sizeOf_lt_of_mem_children
                  (mem_children_of_mem_named (hn ▸ List.mem_cons_self))
              · cases h
            · cases h

/-- The node that a link goes on to counts less, and so does none. -/
theorem Node.sizeOf_next?_lt (node : Node) : sizeOf node.link.next? < sizeOf (some node) := by
  cases h : node.link.next? with
  | none =>
    simp only [Option.none.sizeOf_spec, Option.some.sizeOf_spec]
    have hpos := sizeOf_children_lt node
    omega
  | some next =>
    have hlt := node.sizeOf_lt_of_link h
    simp only [Option.some.sizeOf_spec]
    omega

/-- Goes down a chain from a node. The names that have been passed are kept from the last member on,
and turned around at the end; where the chain starts at a value without a name, nothing is kept. -/
def unwrapChain (parts : List String) : Option Node → List String
  | none => parts.reverse
  | some current =>
    match _h : current.link with
    | .member name next => unwrapChain (parts ++ [name]) next
    | .same next => unwrapChain parts next
    | .root name => (parts ++ [name]).reverse
    | .nameless => []
termination_by current => sizeOf current
decreasing_by
  all_goals
    have hlt := current.sizeOf_next?_lt
    rw [_h] at hlt
    exact hlt

/-- The names of a chain from its root on, none if it has no names or there is no node. -/
def chainOf (node : Option Node) : List String :=
  unwrapChain [] node

/-! ## Constructors and arguments -/

/-- The class that a constructor call with a keyword of its own makes. -/
def CallSyntax.constructed? (calls : CallSyntax) (node : Node) : Option String :=
  if calls.newKinds.contains node.kind then
    (node.firstField? ["constructor", "type"]).bind fun target =>
      nonempty? (typeHead target.text)
  else none

/-- The arguments of a call as one line of text. -/
def Node.argumentText (node : Node) : String :=
  match node.field? "arguments" with
  | none => ""
  | some list =>
    ", ".intercalate ((list.named.filter (·.kind != "comment")).map fun argument =>
      Text.onString Text.squeeze argument.text)

end CodeAtlas.Syntax
