import CodeAtlas.Outline.OfTree
import CodeAtlas.Proofs.Sequence.Recording
import Mathlib.Data.Option.Basic

/-!
# Where the class of a name comes from

Variables are kept under the key of their callable, and callables of one class and one name share
theirs. What is certain of a class that is found for a name is that a callable around the name has
the key under which it was recorded. Where no other callable has that key, and what is declared under
it is what the callable itself lists, it is this callable that gave the class, by one of its own
parameters or by an assignment, and none that the name is not in (`TypeTable.origin_of_lookup`). Two
accessors of one name do share their key, and a name in the one takes the class of a parameter of the
other (`TypeTable.lookup_saveCall_borrows`).
-/

namespace CodeAtlas

open Syntax

/-! ## 1. Sources -/

/-- The parameters that the node of a callable lists. A function may have a single one without a
list. -/
def Outline.parametersAt (language : Language) (node : Node) : List Parameter :=
  match language with
  | .java => Java.parameters (node.field? "parameters")
  | .python => Python.parameters (node.field? "parameters")
  | .typescript | .javascript | .go =>
    Script.parameters (node.field? "parameters") ++
      (node.field? "parameter").toList.map fun single => { name := single.text }

/-- **The node of a frame** is the captured node that opens it. -/
def Frame.IsOf (f : Frame) (captures : List (Capture CallTag)) (node : Node) : Prop :=
  ∃ capture ∈ captures, capture.node = node ∧
    ∃ s ∈ Scope.ofCaptures captures, s.frame = f ∧ Scope.frame? s.outer capture = some f

/-- **A callable of a file has a key to itself**: no other callable of the tree has it, and whatever the
file declares under it has its parameters from the node of this one. So a declaration without a body
does not count as the callable of its name. -/
structure Frame.HasOwnKey (f : Frame) (o : Outline) (captures : List (Capture CallTag)) : Prop where
  frame : ∀ s ∈ Scope.ofCaptures captures, s.frame.isClass = false → s.frame.key = f.key → s.frame = f
  signature : ∀ ps, (f.key, ps) ∈ o.signatures →
    ∃ node, f.IsOf captures node ∧ ps ⊆ Outline.parametersAt o.language node

/-- A callable is around a node: it is in the chain of scopes there, and it encloses the node. -/
structure Frame.IsCallableAround (f : Frame) (scopes : List Scope) (node : Node) : Prop where
  mem_chain : f ∈ Scope.chainOf (Scope.around? scopes node)
  callable : f.isClass = false
  encloses : f.Encloses node.start node.stop

/-- The node of a callable around another node lexically encloses that one. -/
theorem Frame.IsOf.encloses {f : Frame} {captures : List (Capture CallTag)} {scopes : List Scope}
    {own node : Node} (h : f.IsOf captures own) (haround : f.IsCallableAround scopes node) :
    own.start ≤ node.start ∧ node.stop ≤ own.stop := by
  obtain ⟨capture, -, rfl, s, -, -, hframe⟩ := h
  obtain ⟨hstart, hstop, -⟩ := Scope.frame?_spec hframe
  exact ⟨hstart ▸ haround.encloses.1, hstop ▸ haround.encloses.2⟩

/-- **Where the class of a name at a node may come from.** The scopes are those of some captures, of
which `captures` are the ones that have been recorded. -/
inductive TypeTable.Origin (o : Outline) (known : KnownNames) (calls : CallSyntax)
    (all captures : List (Capture CallTag)) (node : Node) (name type : String) : Prop where
  /-- A parameter that the node of a callable around the node lists. -/
  | parameter (f : Frame) (own : Node)
    (haround : f.IsCallableAround (Scope.ofCaptures all) node) (hown : f.IsOf all own)
    (hgives : Parameter.Gives (Outline.parametersAt o.language own) name type)
  /-- An assignment that a callable around the node makes itself. -/
  | assignment (s : Scope) (a : Assignment)
    (haround : s.frame.IsCallableAround (Scope.ofCaptures all) node)
    (htarget : chainOf a.target = [name])
    (hgives : a.Gives o known calls (Scope.ofCaptures all) captures (some s) type)
  /-- A member of the class around the node, where members need no receiver. -/
  | member (owner : String) (himplicit : calls.implicitMembers = true)
    (howner : Scope.ownerOf (Scope.around? (Scope.ofCaptures all) node) = some owner)
    (hgives : GivesMember o known calls (Scope.ofCaptures all) captures owner name type)
  /-- An assignment outside all classes and callables. -/
  | module (a : Assignment) (htarget : chainOf a.target = [name])
    (hgives : a.Gives o known calls (Scope.ofCaptures all) captures none type)
  /-- The name is that of a known class. -/
  | itself (hknown : known.isClass name = true) (htype : type = name)

/-- More parameters give what some of them give. -/
theorem Parameter.Gives.of_subset {ps more : List Parameter} {name type : String}
    (h : Parameter.Gives ps name type) (hsubset : ps ⊆ more) : Parameter.Gives more name type := by
  obtain ⟨p, hp, hgives⟩ := h
  exact ⟨p, hsubset hp, hgives⟩

/-- Parameters are those of callables, never of the module. -/
theorem Outline.ne_module_of_mem_signatures {o : Outline} {key : ScopeKey} {ps : List Parameter}
    (h : (key, ps) ∈ o.signatures) : key ≠ .module := by
  rintro rfl
  simp [signatures] at h

/-- Variables are kept for the module outside all scopes, and else for the callable. -/
theorem Scope.localKey?_eq_some {scope : Option Scope} {key : ScopeKey} :
    localKey? scope = some key ↔ scope = none ∧ key = .module ∨
      ∃ s, scope = some s ∧ s.frame.isClass = false ∧ s.frame.key = key := by
  cases scope with
  | none => simp [localKey?, @eq_comm _ key]
  | some s => simp [localKey?]

namespace TypeTable

variable {o : Outline} {known : KnownNames} {calls : CallSyntax} {node : Node}
  {all captures : List (Capture CallTag)} {f : Frame} {name type : String}

/-- **A variable of a callable around a node** is one of its parameters, or the callable assigns it,
if it has its key to itself. -/
theorem origin_of_local (haround : f.IsCallableAround (Scope.ofCaptures all) node)
    (hown : f.HasOwnKey o all)
    (h : GivesLocal o known calls (Scope.ofCaptures all) captures f.key name type) :
    Origin o known calls all captures node name type := by
  rcases h with ⟨ps, hps, hgives⟩ | ⟨a, scope, hgives, htarget, hkey⟩
  · obtain ⟨own, hnode, hsubset⟩ := hown.signature ps hps
    exact .parameter f own haround hnode (hgives.of_subset hsubset)
  · obtain ⟨-, capture, -, -, -, hscope, -⟩ := id hgives
    rcases Scope.localKey?_eq_some.1 hkey with ⟨-, hmodule⟩ | ⟨s, rfl, hcallable, hsame⟩
    · obtain ⟨t, ht, rfl⟩ := Scope.exists_scope_of_mem_chainOf haround.mem_chain
      exact absurd hmodule (Scope.key_ne_module ht haround.callable)
    · -- the scope of the assignment has the key of `f`, and so it is `f`
      have hframe := hown.frame s (Scope.mem_of_around? hscope) hcallable hsame
      exact .assignment s a (hframe ▸ haround) htarget hgives

/-- **A variable of the module** is assigned outside all classes and callables. -/
theorem origin_of_module
    (h : GivesLocal o known calls (Scope.ofCaptures all) captures .module name type) :
    Origin o known calls all captures node name type := by
  rcases h with ⟨ps, hps, -⟩ | ⟨a, scope, hgives, htarget, hkey⟩
  · exact absurd rfl (Outline.ne_module_of_mem_signatures hps)
  · obtain ⟨-, capture, -, -, -, hscope, -⟩ := id hgives
    rcases Scope.localKey?_eq_some.1 hkey with ⟨rfl, -⟩ | ⟨s, rfl, hcallable, hsame⟩
    · exact .module a htarget hgives
    · exact absurd hsame (Scope.key_ne_module (Scope.mem_of_around? hscope) hcallable)

/-! ## 2. Lookups -/

/-- **How a name is found**: as a variable of a callable of the chain, a member, a variable of the
module, or a class. -/
theorem lookup?_cases {table : TypeTable} {scope : Option Scope}
    (h : table.lookup? known calls scope name = some type) :
    (∃ f ∈ Scope.chainOf scope, f.isClass = false ∧ table.local? f.key name = some type) ∨
      (calls.implicitMembers = true ∧
        ∃ owner, Scope.ownerOf scope = some owner ∧ table.member? owner name = some type) ∨
      table.local? .module name = some type ∨ known.isClass name = true ∧ type = name := by
  unfold lookup? at h
  dsimp only at h
  rw [Option.orElse_eq_some, Option.orElse_eq_some, Option.orElse_eq_some] at h
  rcases h with h | ⟨-, h | ⟨-, h | ⟨-, h⟩⟩⟩
  · obtain ⟨f, hf, hfound⟩ := List.exists_of_findSome?_eq_some h
    obtain ⟨hmem, hcallable⟩ := List.mem_filter.1 hf
    exact Or.inl ⟨f, hmem, Bool.not_eq_true' _ ▸ hcallable, hfound⟩
  · split at h
    · rename_i himplicit
      exact Or.inr (Or.inl ⟨himplicit, Option.bind_eq_some_iff.1 h⟩)
    · cases h
  · exact Or.inr (Or.inr (Or.inl h))
  · split at h
    · rename_i hknown
      exact Or.inr (Or.inr (Or.inr ⟨hknown, (Option.some.inj h).symm⟩))
    · cases h

/-- **A name never borrows the class of a variable elsewhere**: where the callables around a node
have their keys to themselves, the class that is found for a name there was given to it by one of
them, by a parameter that it lists or an assignment that it makes, or by a member of the class around,
or by the module, or it is the name itself. It is of no matter in which order the nodes were found. -/
theorem origin_of_lookup {found : List (Capture CallTag)}
    (hown : ∀ f : Frame, f.IsCallableAround (Scope.ofCaptures (Capture.inOrder found)) node →
      f.HasOwnKey o (Capture.inOrder found))
    (h : (ofCaptures o known calls (Scope.ofCaptures (Capture.inOrder found)) captures).lookup? known
      calls (Scope.around? (Scope.ofCaptures (Capture.inOrder found)) node) name = some type) :
    Origin o known calls (Capture.inOrder found) captures node name type := by
  have hrespects :=
    respects_ofCaptures o known calls (Scope.ofCaptures (Capture.inOrder found)) captures
  rcases lookup?_cases h with ⟨f, hf, hcallable, hfound⟩ | ⟨himplicit, owner, howner, hfound⟩ |
    hfound | ⟨hknown, heq⟩
  · have haround : f.IsCallableAround (Scope.ofCaptures (Capture.inOrder found)) node :=
      ⟨hf, hcallable, Scope.encloses_of_mem_chainOf (Capture.pairwise_inOrder found) hf⟩
    exact origin_of_local haround (hown f haround) (hrespects.local? hfound)
  · exact .member owner himplicit howner (hrespects.member? hfound)
  · exact origin_of_module (hrespects.local? hfound)
  · exact .itself hknown heq

end TypeTable

/-! ## 3. Accessors of one name -/

/-- A class with two accessors of one name, and a method. -/
def accessorText : String :=
  "class A \x7b set x(u: User) \x7b\x7d get x() \x7b u.save(); \x7d " ++
    "go(v: User) \x7b v.save(); \x7d \x7d\n"

/-- A parameter of the class `User` in `accessorText`. -/
def userParameter (id start : Nat) : Node :=
  let rule := (Source.ofString accessorText).rule
  let token := (Source.ofString accessorText).token
  rule id "required_parameter" none start (start + 7)
    [rule (id + 1) "identifier" (some "pattern") start (start + 1) [],
      rule (id + 2) "type_annotation" (some "type") (start + 1) (start + 7)
        [token (id + 3) ":" (start + 1) (start + 2),
          rule (id + 4) "type_identifier" none (start + 3) (start + 7) []]]

/-- A call of `save` in `accessorText`. -/
def saveCall (id start : Nat) : Node :=
  let rule := (Source.ofString accessorText).rule
  let token := (Source.ofString accessorText).token
  rule id "call_expression" none start (start + 8)
    [rule (id + 1) "member_expression" (some "function") start (start + 6)
        [rule (id + 2) "identifier" (some "object") start (start + 1) [],
          token (id + 3) "." (start + 1) (start + 2),
          rule (id + 4) "property_identifier" (some "property") (start + 2) (start + 6) []],
      rule (id + 5) "arguments" (some "arguments") (start + 6) (start + 8)
        [token (id + 6) "(" (start + 6) (start + 7), token (id + 7) ")" (start + 7) (start + 8)]]

/-- The tree of `accessorText`. -/
def accessorTree : Node :=
  let rule := (Source.ofString accessorText).rule
  let token := (Source.ofString accessorText).token
  rule 0 "program" none 0 78
    [rule 1 "class_declaration" none 0 77
      [token 2 "class" 0 5, rule 3 "type_identifier" (some "name") 6 7 [],
        rule 4 "class_body" (some "body") 8 77
          [token 5 "\x7b" 8 9,
            rule 6 "method_definition" none 10 27
              [token 7 "set" 10 13, rule 8 "property_identifier" (some "name") 14 15 [],
                rule 9 "formal_parameters" (some "parameters") 15 24
                  [token 10 "(" 15 16, userParameter 11 16, token 16 ")" 23 24],
                rule 17 "statement_block" (some "body") 25 27
                  [token 18 "\x7b" 25 26, token 19 "\x7d" 26 27]],
            rule 20 "method_definition" none 28 49
              [token 21 "get" 28 31, rule 22 "property_identifier" (some "name") 32 33 [],
                rule 23 "formal_parameters" (some "parameters") 33 35
                  [token 24 "(" 33 34, token 25 ")" 34 35],
                rule 26 "statement_block" (some "body") 36 49
                  [token 27 "\x7b" 36 37,
                    rule 28 "expression_statement" none 38 47 [saveCall 29 38, token 37 ";" 46 47],
                    token 38 "\x7d" 48 49]],
            rule 39 "method_definition" none 50 75
              [rule 40 "property_identifier" (some "name") 50 52 [],
                rule 41 "formal_parameters" (some "parameters") 52 61
                  [token 42 "(" 52 53, userParameter 43 53, token 48 ")" 60 61],
                rule 49 "statement_block" (some "body") 62 75
                  [token 50 "\x7b" 62 63,
                    rule 51 "expression_statement" none 64 73 [saveCall 52 64, token 60 ";" 72 73],
                    token 61 "\x7d" 74 75]],
            token 62 "\x7d" 76 77]]]

/-- What `accessorText` declares. -/
def accessorOutline : Outline :=
  Outline.ofSoundTree .typescript "/src/a.ts" accessorTree

/-- Calls in the grammar of `accessorText`. -/
def accessorCalls : CallSyntax :=
  .script ["class_declaration", "abstract_class_declaration", "class"]

/-- What is captured in `accessorTree`. -/
def accessorCaptures : List (Capture CallTag) :=
  accessorTree.captures (byKind accessorCalls.tags)

theorem accessorCaptures_eq :
    accessorCaptures = accessorTree.picked (byKind accessorCalls.tags) :=
  Node.captures_eq_picked (by decide +kernel)

namespace TypeTable

/-- The class that is found for a name at a node of `accessorTree`. -/
def accessorLookup? (node : Node) (name : String) : Option String :=
  (ofCaptures accessorOutline (.ofOutline accessorOutline) accessorCalls
    (Scope.ofCaptures accessorCaptures) accessorCaptures).lookup? (.ofOutline accessorOutline)
    accessorCalls (Scope.around? (Scope.ofCaptures accessorCaptures) node) name

/-- In the method `go`, which has its key to itself, `v` is the parameter. -/
theorem origin_of_lookup_saveCall :
    (∀ f : Frame, f.IsCallableAround (Scope.ofCaptures accessorCaptures) (saveCall 52 64) →
      f.HasOwnKey accessorOutline accessorCaptures) ∧
    accessorLookup? (saveCall 52 64) "v" = some "User" ∧
    Origin accessorOutline (.ofOutline accessorOutline) accessorCalls accessorCaptures
      accessorCaptures (saveCall 52 64) "v" "User" := by
  have haround : ∀ f ∈ Scope.chainOf
      (Scope.around? (Scope.ofCaptures accessorCaptures) (saveCall 52 64)), f.isClass = false →
      (∀ s ∈ Scope.ofCaptures accessorCaptures, s.frame.isClass = false → s.frame.key = f.key →
        s.frame = f) ∧
      ∀ a ∈ accessorOutline.signatures, a.1 = f.key → ∃ capture ∈ accessorCaptures,
        (∃ s ∈ Scope.ofCaptures accessorCaptures, s.frame = f ∧
          Scope.frame? s.outer capture = some f) ∧
        ∀ p ∈ a.2, p ∈ Outline.parametersAt accessorOutline.language capture.node := by
    rw [accessorCaptures_eq]
    decide +kernel
  have hown : ∀ f : Frame, f.IsCallableAround (Scope.ofCaptures accessorCaptures)
      (saveCall 52 64) → f.HasOwnKey accessorOutline accessorCaptures := by
    intro f hf
    obtain ⟨hframe, hsignature⟩ := haround f hf.mem_chain hf.callable
    refine ⟨hframe, fun ps hps => ?_⟩
    obtain ⟨capture, hcapture, hopened, hlisted⟩ := hsignature _ hps rfl
    exact ⟨capture.node, ⟨capture, hcapture, rfl, hopened⟩, hlisted⟩
  have hfound : accessorLookup? (saveCall 52 64) "v" = some "User" := by
    rw [accessorLookup?, accessorCaptures_eq]
    decide +kernel
  exact ⟨hown, hfound, origin_of_lookup hown hfound⟩

/-- **A name borrows the class of a variable elsewhere** where callables share a key: in the getter
`u` has the class of the parameter of the setter. That is the only parameter of the name, and no
callable around the call encloses it; nothing is assigned, members need a receiver, and no class has
the name. -/
theorem lookup_saveCall_borrows :
    accessorLookup? (saveCall 29 38) "u" = some "User" ∧
    (∀ f : Frame, f.IsCallableAround (Scope.ofCaptures accessorCaptures) (saveCall 29 38) →
      ¬ f.Encloses (userParameter 11 16).start (userParameter 11 16).stop) ∧
    (accessorOutline.signatures.flatMap (·.2)).countP (·.name == "u") = 1 ∧
    (∀ capture ∈ accessorCaptures, Assignment.ofCapture? capture = none) ∧
    accessorCalls.implicitMembers = false ∧
    (KnownNames.ofOutline accessorOutline).isClass "u" = false := by
  have haround : ∀ f ∈ Scope.chainOf
      (Scope.around? (Scope.ofCaptures accessorCaptures) (saveCall 29 38)), f.isClass = false →
      ¬ (f.start ≤ (userParameter 11 16).start ∧ (userParameter 11 16).stop ≤ f.stop) := by
    rw [accessorCaptures_eq]
    decide +kernel
  have htags : ∀ capture ∈ accessorCaptures, capture.tag ≠ .assign ∧ capture.tag ≠ .declare := by
    rw [accessorCaptures_eq]
    decide +kernel
  refine ⟨?_, fun f hf => haround f hf.mem_chain hf.callable, ?_, fun capture hmem => ?_, rfl, ?_⟩
  · rw [accessorLookup?, accessorCaptures_eq]
    decide +kernel
  · decide +kernel
  · exact Assignment.ofCapture?_eq_none (htags capture hmem).1 (htags capture hmem).2
  · decide +kernel

end TypeTable

end CodeAtlas
