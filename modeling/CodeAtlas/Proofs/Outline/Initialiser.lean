import CodeAtlas.Proofs.Outline.Assignment
import CodeAtlas.Proofs.Outline.Fault
import CodeAtlas.Proofs.Outline.TopLevel
import CodeAtlas.Proofs.Syntax.Walk

/-!
# What an initialiser adds to its class

An `__init__` of a Python class gives it a field for each attribute that it assigns through `self`.
The walk through its body comes to the nodes outside other functions and classes
(`Python.openNodes`), and what these have to add is added to the fields that earlier statements of the
class body have recorded (`Python.exists_addsFirst_addStatement`). Later statements take nothing back,
so the class has it all (`Python.addsFirst_ofTree`).

Attributes that are unpacked from a tuple or a list are assigned as well, and are passed over
(`Python.passes_over_unpacked`).
-/

namespace CodeAtlas

open Syntax

/-! ## 1. Trees in the order of their text -/

namespace Syntax.Node

variable {root n m : Node}

/-- **A tree is in the order of its text**: no node ends before it starts, children lie inside their
parent, and each of them ends before the next one starts. -/
def IsInOrder (root : Node) : Prop :=
  ∀ n ∈ root.preorder, n.start ≤ n.stop ∧ (∀ c ∈ n.children, c.LiesIn n) ∧
    n.children.Pairwise fun a b => a.stop ≤ b.start

instance (root : Node) : Decidable root.IsInOrder :=
  inferInstanceAs (Decidable (∀ n ∈ root.preorder, _))

/-- What is below a node of a tree is in the tree. -/
theorem preorder_subset : ∀ {root : Node}, n ∈ root.preorder → n.preorder ⊆ root.preorder
  | .node label children, h => by
    intro m hm
    rw [preorder_eq, List.mem_cons, List.mem_flatMap] at h
    rcases h with rfl | ⟨c, hc, hbelow⟩
    · exact hm
    · exact mem_preorder_of_mem_children hc (preorder_subset hbelow hm)
termination_by root => root
decreasing_by exact sizeOf_lt_of_mem_children hc

theorem mem_preorder_of_child {c : Node} (hn : n ∈ root.preorder) (hc : c ∈ n.children) :
    c ∈ root.preorder :=
  preorder_subset hn (mem_preorder_of_mem_children hc c.self_mem_preorder)

theorem IsInOrder.of_mem (h : root.IsInOrder) (hn : n ∈ root.preorder) : n.IsInOrder :=
  fun m hm => h m (preorder_subset hn hm)

/-- All of a tree lies inside its root. -/
theorem IsInOrder.liesIn : ∀ {root : Node}, root.IsInOrder → n ∈ root.preorder → n.LiesIn root
  | .node label children, h, hn => by
    have hself := h _ (self_mem_preorder _)
    rw [preorder_eq, List.mem_cons, List.mem_flatMap] at hn
    rcases hn with rfl | ⟨c, hc, hbelow⟩
    · exact .refl _
    · have hchild : c.IsInOrder := h.of_mem (mem_preorder_of_child (self_mem_preorder _) hc)
      exact (IsInOrder.liesIn hchild hbelow).trans (hself.2.1 c hc)
termination_by root => root
decreasing_by exact sizeOf_lt_of_mem_children hc

/-- **In preorder no node starts before an earlier one.** -/
theorem IsInOrder.pairwise_start : ∀ {root : Node}, root.IsInOrder →
    root.preorder.Pairwise fun a b => a.start ≤ b.start
  | .node label children, h => by
    have hself := h _ (self_mem_preorder _)
    have hchild : ∀ c ∈ children, c.IsInOrder := fun c hc =>
      h.of_mem (mem_preorder_of_child (self_mem_preorder _) hc)
    rw [preorder_eq, List.pairwise_cons, List.pairwise_flatMap]
    refine ⟨fun n hn => ?_, fun c hc => IsInOrder.pairwise_start (hchild c hc), ?_⟩
    · obtain ⟨c, hc, hbelow⟩ := List.mem_flatMap.1 hn
      have hin : n.LiesIn (node label children) :=
        ((hchild c hc).liesIn hbelow).trans (hself.2.1 c hc)
      exact hin.1
    -- what is below a child ends before the next child starts
    · refine hself.2.2.imp_of_mem ?_
      intro c d hc hd hcd a ha b hb
      have hac := (hchild c hc).liesIn ha
      have hbd := (hchild d hd).liesIn hb
      have hroom := (hchild c hc a ha).1
      unfold LiesIn at hac hbd
      omega
termination_by root => root
decreasing_by exact sizeOf_lt_of_mem_children hc

/-- What a walk comes to is in the tree, in the order of the tree. -/
theorem sublist_preorder_openSites (stopAt : List String) (root : Node) :
    ((root.openSites stopAt).map Site.node).Sublist root.preorder :=
  (List.filter_sublist.trans (List.tail_sublist _)).map Site.node

end Syntax.Node

namespace Outline.Python

/-! ## 2. The body of a class -/

/-- What some statements of the body of a class have shown. -/
def bodyOf (statements : List Node) : Body :=
  statements.foldl Body.addStatement {}

/-- **The nodes in the body of a function** outside the functions and classes in it, in preorder. -/
def openNodes (function : Node) : List Node :=
  match function.field? "body" with
  | none => []
  | some body => (body.openSites definitionKinds).map Site.node

variable {statement : Node}

theorem exists_addsFirst_instanceAttributes (parameters : List Parameter)
    (recorded : List Property) (init : Node) :
    ∃ added, addInstanceAttributes parameters recorded init = recorded ++ added ∧
      AddsFirst parameters recorded (openNodes init) added := by
  rw [addInstanceAttributes, openNodes]
  cases init.field? "body" with
  | none => exact ⟨[], (List.append_nil recorded).symm, .nil⟩
  | some body =>
    dsimp only
    rw [Node.walk_eq_openSites]
    exact exists_addsFirst parameters recorded _

/-- **An initialiser adds what the nodes of its body have to add**, with the types that its own
parameters have. -/
theorem exists_addsFirst_addStatement (body : Body)
    (hkind : (undecorated statement).2.kind = "function_definition")
    (hname : (undecorated statement).2.fieldText "name" = "__init__") :
    ∃ parameters added, (body.addStatement statement).constructorParameters = some parameters ∧
      (body.addStatement statement).properties = body.properties ++ added ∧
      AddsFirst parameters body.properties (openNodes (undecorated statement).2) added := by
  have hstatement : body.addStatement statement
      = body.addMethod (undecorated statement).1 (undecorated statement).2 := by
    rw [Body.addStatement]
    exact if_pos (beq_iff_eq.2 hkind)
  rw [hstatement, Body.addMethod, hname, if_pos (by decide)]
  dsimp only
  obtain ⟨added, hadded, hadds⟩ := exists_addsFirst_instanceAttributes _ body.properties
    (undecorated statement).2
  exact ⟨_, added, rfl, hadded, hadds⟩

theorem prefix_addProperty (recorded : List Property) (name : String) (type : Option String)
    (isStatic : Bool) (line : Int) : recorded <+: addProperty recorded name type isStatic line := by
  unfold addProperty
  split
  · exact List.prefix_refl recorded
  · exact List.prefix_append recorded _

theorem prefix_addClassAttribute (recorded : List Property) (statement : Node) :
    recorded <+: addClassAttribute recorded statement := by
  unfold addClassAttribute
  split
  · exact List.prefix_refl recorded
  split
  · exact List.prefix_refl recorded
  split
  · exact List.prefix_refl recorded
  split
  · exact prefix_addProperty recorded _ _ _ _
  · exact prefix_addProperty recorded _ _ _ _

/-- No statement takes a field back. -/
theorem prefix_addStatement (body : Body) (statement : Node) :
    body.properties <+: (body.addStatement statement).properties := by
  by_cases hkind : (undecorated statement).2.kind = "function_definition"
  · by_cases hname : (undecorated statement).2.fieldText "name" = "__init__"
    · obtain ⟨_, added, -, hadded, -⟩ := exists_addsFirst_addStatement body hkind hname
      rw [hadded]
      exact List.prefix_append _ added
    · rw [Body.addStatement]
      dsimp only
      rw [if_pos (beq_iff_eq.2 hkind), Body.addMethod, if_neg (mt beq_iff_eq.1 hname)]
  · rw [Body.addStatement]
    dsimp only
    rw [if_neg (mt beq_iff_eq.1 hkind)]
    split
    · exact prefix_addClassAttribute _ _
    · exact List.prefix_refl _

theorem prefix_foldl_addStatement (body : Body) (statements : List Node) :
    body.properties <+: (statements.foldl Body.addStatement body).properties :=
  List.foldlRecOn (motive := fun after : Body => body.properties <+: after.properties) statements
    Body.addStatement (List.prefix_refl _) fun after hafter statement _ =>
      hafter.trans (prefix_addStatement after statement)

/-- A class has the fields that its body has shown. -/
theorem exists_classDeclared (path : String) {owner block : Node}
    (hname : owner.fieldText "name" ≠ "") (hblock : owner.field? "body" = some block) :
    ∃ c, (classDeclared path owner).classes = [c] ∧ StandsFor c owner ∧
      c.properties = (bodyOf block.named).properties := by
  have hclass : ∃ c, (classDeclared path owner).classes = [c] ∧
      c.properties = (bodyOf block.named).properties := by
    rw [classDeclared, nonempty?_of_ne hname, hblock]
    exact ⟨_, rfl, rfl⟩
  obtain ⟨c, hc, hproperties⟩ := hclass
  have hmem : c ∈ (classDeclared path owner).classes := by
    rw [hc]
    exact List.mem_singleton_self c
  exact ⟨c, hc, standsFor_of_mem_classDeclared hmem, hproperties⟩

/-! ## 3. Files -/

/-- **An `__init__` of a class at the top of a file**, with the statements of the class body before
and after it. Both the class and the method may be decorated. -/
structure Initialiser (root : Node) where
  declaration : Node
  mem_named : declaration ∈ root.named
  isClass : (undecorated declaration).2.kind = "class_definition"
  isNamed : (undecorated declaration).2.fieldText "name" ≠ ""
  block : Node
  hasBlock : (undecorated declaration).2.field? "body" = some block
  before : List Node
  statement : Node
  after : List Node
  split : block.named = before ++ statement :: after
  isFunction : (undecorated statement).2.kind = "function_definition"
  isInit : (undecorated statement).2.fieldText "name" = "__init__"

namespace Initialiser

variable {root : Node}

/-- The definition of the class. -/
def owner (i : Initialiser root) : Node :=
  (undecorated i.declaration).2

/-- The definition of the method. -/
def function (i : Initialiser root) : Node :=
  (undecorated i.statement).2

/-- The fields that earlier statements of the class body have recorded. -/
def recordedBefore (i : Initialiser root) : List Property :=
  (bodyOf i.before).properties

end Initialiser

/-- A definition is in the tree of what decorates it. -/
theorem undecorated_mem_preorder (n : Node) : (undecorated n).2 ∈ n.preorder := by
  rw [undecorated]
  split
  · dsimp only
    cases hdefinition : n.field? "definition" with
    | none => exact n.self_mem_preorder
    | some definition =>
      exact Node.mem_preorder_of_child n.self_mem_preorder
        (Node.mem_children_of_field? hdefinition)
  · exact n.self_mem_preorder

theorem Initialiser.function_mem_preorder {root : Node} (i : Initialiser root) :
    i.function ∈ root.preorder := by
  have hdeclaration : i.declaration ∈ root.preorder :=
    Node.mem_preorder_of_child root.self_mem_preorder (Node.mem_children_of_mem_named i.mem_named)
  have howner : i.owner ∈ root.preorder :=
    Node.preorder_subset hdeclaration (undecorated_mem_preorder i.declaration)
  have hblock : i.block ∈ root.preorder :=
    Node.mem_preorder_of_child howner (Node.mem_children_of_field? i.hasBlock)
  have hstatement : i.statement ∈ root.preorder := by
    refine Node.mem_preorder_of_child hblock (Node.mem_children_of_mem_named ?_)
    rw [i.split]
    exact List.mem_append_right _ List.mem_cons_self
  exact Node.preorder_subset hstatement (undecorated_mem_preorder i.statement)

/-- In a tree in the order of its text no node of a body stands on a line before an earlier one. -/
theorem pairwise_line_openNodes {root function : Node} {source : Source} (horder : root.IsInOrder)
    (hlines : root.HasLinesOf source) (hfunction : function ∈ root.preorder) :
    (openNodes function).Pairwise fun a b => a.line ≤ b.line := by
  rw [openNodes]
  cases hbody : function.field? "body" with
  | none => exact List.Pairwise.nil
  | some body =>
    have hmem : body ∈ root.preorder :=
      Node.mem_preorder_of_child hfunction (Node.mem_children_of_field? hbody)
    have hsublist := body.sublist_preorder_openSites definitionKinds
    refine ((horder.of_mem hmem).pairwise_start.sublist hsublist).imp_of_mem ?_
    intro a b ha hb hle
    obtain ⟨s, hs, rfl⟩ := Node.mem_preorder.1 (Node.preorder_subset hmem (hsublist.subset ha))
    obtain ⟨t, ht, rfl⟩ := Node.mem_preorder.1 (Node.preorder_subset hmem (hsublist.subset hb))
    exact hlines.line_le hs ht hle

/-- **The walk with a stack, and what an initialiser adds by it.** A walk comes to the nodes properly
below a node that have no node to stop at strictly between, each once and in preorder. So the fields of
a class in a file are those that the statements before an `__init__` record, then those that its
assignments through `self` add, then what comes later. It adds one field for each name that is assigned
outside other functions and classes and not recorded yet, from the first node that assigns it; and in
a tree in the order of its text the lines of these fields never decrease. -/
theorem addsFirst_ofTree :
    (∀ (stopAt : List String) (n : Node),
      n.walk stopAt = n.descendants (fun m => stopAt.contains m.kind) ∧
      n.walk stopAt = (n.openSites stopAt).map Site.node) ∧
    ∀ (path : String) (root : Node) (i : Initialiser root), root.firstFault? = none →
      ∃ o, ofTree .python path root = .ok o ∧
        ∃ c ∈ o.classes, StandsFor c i.owner ∧
          ∃ parameters added later,
            (bodyOf (i.before ++ [i.statement])).constructorParameters = some parameters ∧
            c.properties = i.recordedBefore ++ added ++ later ∧
            AddsFirst parameters i.recordedBefore (openNodes i.function) added ∧
            ∀ source, root.IsInOrder → root.HasLinesOf source →
              added.Pairwise fun p q => p.line ≤ q.line := by
  refine ⟨fun stopAt n => ⟨n.walk_eq_descendants stopAt, n.walk_eq_openSites stopAt⟩, ?_⟩
  intro path root i hsound
  obtain ⟨c, hclass, hstands, hproperties⟩ := exists_classDeclared path i.isNamed i.hasBlock
  obtain ⟨parameters, added, hparameters, hadded, hadds⟩ :=
    exists_addsFirst_addStatement (bodyOf i.before) i.isFunction i.isInit
  have hafter : (bodyOf i.before).addStatement i.statement = bodyOf (i.before ++ [i.statement]) := by
    rw [bodyOf, bodyOf, List.foldl_append, List.foldl_cons, List.foldl_nil]
  rw [hafter] at hparameters hadded
  obtain ⟨later, hlater⟩ := prefix_foldl_addStatement (bodyOf (i.before ++ [i.statement])) i.after
  refine ⟨ofSoundTree .python path root, ofTree_of_sound hsound, c, ?_, hstands, parameters, added,
    later, hparameters, ?_, hadds, ?_⟩
  · rw [classes_ofSoundTree, List.mem_flatMap]
    refine ⟨i.declaration, i.mem_named, ?_⟩
    rw [declaredBy, declared, if_pos (beq_iff_eq.2 i.isClass), hclass]
    exact List.mem_singleton_self c
  · rw [hproperties, i.split, List.append_cons, bodyOf, List.foldl_append, ← bodyOf, ← hlater, hadded]
    rfl
  · intro source horder hlines
    exact hadds.pairwise_line (pairwise_line_openNodes horder hlines i.function_mem_preorder)

/-! ### An initialiser with chained and repeated assignments -/

/-- An attribute of `self` with a name of one letter. -/
def selfAttribute (source : Source) (id : Nat) (field : Option String) (start : Nat) : Node :=
  source.rule id "attribute" field start (start + 6)
    [source.rule (id + 1) "identifier" (some "object") start (start + 4) [],
      source.token (id + 2) "." (start + 4) (start + 5),
      source.rule (id + 3) "identifier" (some "attribute") (start + 5) (start + 6) []]

/-- The text of a class that declares `b` itself. Its initialiser assigns `a` twice, once under a
condition, and `e` only in a function of its own. -/
def chainedText : String :=
  "class A:\n    b: int\n    def __init__(self, d: D):\n        self.a = self.b = d\n" ++
    "        def f(): self.e = d\n        if d: self.a = self.c = d\n"

/-- The statement that declares `b`. -/
def chainedField : Node :=
  let rule := (Source.ofString chainedText).rule
  let token := (Source.ofString chainedText).token
  rule 6 "expression_statement" none 13 19
    [rule 7 "assignment" none 13 19
      [rule 8 "identifier" (some "left") 13 14 [], token 9 ":" 14 15,
        rule 10 "type" (some "type") 16 19 [rule 11 "identifier" none 16 19 []]]]

/-- A statement that assigns `d` to two attributes, one after the other. -/
def chainedAssignment (id start : Nat) : Node :=
  let rule := (Source.ofString chainedText).rule
  let token := (Source.ofString chainedText).token
  let own := selfAttribute (Source.ofString chainedText)
  rule id "expression_statement" none start (start + 19)
    [rule (id + 1) "assignment" none start (start + 19)
      [own (id + 2) (some "left") start, token (id + 6) "=" (start + 7) (start + 8),
        rule (id + 7) "assignment" (some "right") (start + 9) (start + 19)
          [own (id + 8) (some "left") (start + 9), token (id + 12) "=" (start + 16) (start + 17),
            rule (id + 13) "identifier" (some "right") (start + 18) (start + 19) []]]]

/-- The initialiser of `chainedText`. -/
def chainedInit : Node :=
  let rule := (Source.ofString chainedText).rule
  let token := (Source.ofString chainedText).token
  let own := selfAttribute (Source.ofString chainedText)
  rule 12 "function_definition" none 24 139
    [token 13 "def" 24 27, rule 14 "identifier" (some "name") 28 36 [],
      rule 15 "parameters" (some "parameters") 36 48
        [token 16 "(" 36 37, rule 17 "identifier" none 37 41 [], token 18 "," 41 42,
          rule 19 "typed_parameter" none 43 47
            [rule 20 "identifier" none 43 44 [], token 21 ":" 44 45,
              rule 22 "type" (some "type") 46 47 [rule 23 "identifier" none 46 47 []]],
          token 24 ")" 47 48],
      token 25 ":" 48 49,
      rule 26 "block" (some "body") 58 139
        [chainedAssignment 27 58,
          rule 41 "function_definition" none 86 105
            [token 42 "def" 86 89, rule 43 "identifier" (some "name") 90 91 [],
              rule 44 "parameters" (some "parameters") 91 93 [token 45 "(" 91 92, token 46 ")" 92 93],
              token 47 ":" 93 94,
              rule 48 "block" (some "body") 95 105
                [rule 49 "expression_statement" none 95 105
                  [rule 50 "assignment" none 95 105
                    [own 51 (some "left") 95, token 55 "=" 102 103,
                      rule 56 "identifier" (some "right") 104 105 []]]]],
          rule 57 "if_statement" none 114 139
            [token 58 "if" 114 116, rule 59 "identifier" (some "condition") 117 118 [],
              token 60 ":" 118 119,
              rule 61 "block" (some "consequence") 120 139 [chainedAssignment 62 120]]]]

/-- The definition of a class `A` with some statements in its body, at the start of a text. -/
def classOf (source : Source) (stop : Nat) (statements : List Node) : Node :=
  source.rule 1 "class_definition" none 0 stop
    [source.token 2 "class" 0 5, source.rule 3 "identifier" (some "name") 6 7 [],
      source.token 4 ":" 7 8, source.rule 5 "block" (some "body") 13 stop statements]

/-- The tree of `chainedText`. -/
def chainedTree : Node :=
  (Source.ofString chainedText).rule 0 "module" none 0 140
    [classOf (Source.ofString chainedText) 139 [chainedField, chainedInit]]

/-- The initialiser in its class and its tree. -/
def chaining : Initialiser chainedTree where
  declaration := classOf (Source.ofString chainedText) 139 [chainedField, chainedInit]
  mem_named := List.mem_cons_self
  isClass := rfl
  isNamed := by decide +kernel
  block := (Source.ofString chainedText).rule 5 "block" (some "body") 13 139 [chainedField, chainedInit]
  hasBlock := rfl
  before := [chainedField]
  statement := chainedInit
  after := []
  split := rfl
  isFunction := rfl
  isInit := by decide +kernel

/-- The field `b` stays that of the class body, `a` is from the first line that assigns it, and there
is no `e`. -/
theorem addsFirst_ofTree_chained :
    chainedTree.firstFault? = none ∧ chainedTree.IsInOrder ∧
    chainedTree.HasLinesOf (Source.ofString chainedText) ∧
    ∃ o, ofTree .python "/src/a.py" chainedTree = .ok o ∧
      ∃ c ∈ o.classes, ∃ parameters added later,
        c.properties = chaining.recordedBefore ++ added ++ later ∧
        AddsFirst parameters chaining.recordedBefore (openNodes chaining.function) added ∧
        (added.Pairwise fun p q => p.line ≤ q.line) ∧
        c.properties.map (fun p => (p.name, p.line)) = [("b", 2), ("a", 4), ("c", 6)] := by
  have hsound : chainedTree.firstFault? = none := Option.isNone_iff_eq_none.1 (by decide +kernel)
  have horder : chainedTree.IsInOrder := by decide +kernel
  have hlines : chainedTree.HasLinesOf (Source.ofString chainedText) := by decide +kernel
  obtain ⟨o, hread, c, hc, -, parameters, added, later, -, hproperties, hadds, hsorted⟩ :=
    addsFirst_ofTree.2 "/src/a.py" chainedTree chaining hsound
  have hall : ∀ c ∈ (ofSoundTree .python "/src/a.py" chainedTree).classes,
      c.properties.map (fun p => (p.name, p.line)) = [("b", 2), ("a", 4), ("c", 6)] := by
    decide +kernel
  have hread' : ofSoundTree .python "/src/a.py" chainedTree = o := by
    rw [ofTree_of_sound hsound] at hread
    exact Except.ok.inj hread
  rw [hread'] at hall
  exact ⟨hsound, horder, hlines, o, hread, c, hc, parameters, added, later, hproperties, hadds,
    hsorted _ horder hlines, hall c hc⟩

/-! ## 4. Unpacking -/

/-- **What a target of an assignment takes**: itself, or, if it is a tuple or a list to be unpacked,
what its parts take. -/
inductive Takes : Node → Node → Prop
  | whole (target : Node) : Takes target target
  | part {target part taken : Node} :
      target.kind ∈ ["pattern_list", "tuple_pattern", "list_pattern", "list_splat_pattern"] →
      part ∈ target.named → Takes part taken → Takes target taken

/-- An assignment gives a value to an attribute of `self`, by itself or with others. -/
def AssignsThroughSelf (n : Node) (name : String) : Prop :=
  n.kind = "assignment" ∧ ∃ target taken, n.field? "left" = some target ∧ Takes target taken ∧
    taken.kind = "attribute" ∧ taken.fieldText "object" = "self" ∧
      taken.fieldText "attribute" = name

/-- An attribute that is assigned by itself is assigned. -/
theorem AssignsOwn.assignsThroughSelf {n : Node} {name : String} (h : AssignsOwn n name) :
    AssignsThroughSelf n name := by
  obtain ⟨hkind, -, left, hleft, hattribute, hself, hname⟩ := h
  exact ⟨hkind, left, left, hleft, .whole left, hattribute, hself, hname⟩

/-- The text of a class whose initialiser unpacks a pair into two attributes. -/
def unpackedText : String :=
  "class A:\n    def __init__(self, p):\n        self.a, self.b = p\n"

/-- The assignment of `unpackedText`. -/
def unpackedPair : Node :=
  let rule := (Source.ofString unpackedText).rule
  let token := (Source.ofString unpackedText).token
  let own := selfAttribute (Source.ofString unpackedText)
  rule 18 "assignment" none 44 62
    [rule 19 "pattern_list" (some "left") 44 58
        [own 20 none 44, token 24 "," 50 51, own 25 none 52],
      token 29 "=" 59 60, rule 30 "identifier" (some "right") 61 62 []]

/-- The initialiser of `unpackedText`. -/
def unpackedInit : Node :=
  let rule := (Source.ofString unpackedText).rule
  let token := (Source.ofString unpackedText).token
  rule 6 "function_definition" none 13 62
    [token 7 "def" 13 16, rule 8 "identifier" (some "name") 17 25 [],
      rule 9 "parameters" (some "parameters") 25 34
        [token 10 "(" 25 26, rule 11 "identifier" none 26 30 [], token 12 "," 30 31,
          rule 13 "identifier" none 32 33 [], token 14 ")" 33 34],
      token 15 ":" 34 35,
      rule 16 "block" (some "body") 44 62 [rule 17 "expression_statement" none 44 62 [unpackedPair]]]

/-- The tree of `unpackedText`. -/
def unpackedTree : Node :=
  (Source.ofString unpackedText).rule 0 "module" none 0 63
    [classOf (Source.ofString unpackedText) 62 [unpackedInit]]

/-- The initialiser in its class and its tree. -/
def unpacking : Initialiser unpackedTree where
  declaration := classOf (Source.ofString unpackedText) 62 [unpackedInit]
  mem_named := List.mem_cons_self
  isClass := rfl
  isNamed := by decide +kernel
  block := (Source.ofString unpackedText).rule 5 "block" (some "body") 13 62 [unpackedInit]
  hasBlock := rfl
  before := []
  statement := unpackedInit
  after := []
  split := rfl
  isFunction := rfl
  isInit := by decide +kernel

/-- **Attributes that are unpacked are passed over**: the initialiser assigns `a` and `b` through
`self`, outside other functions and classes, and the class has no field for either, from before or
from it. -/
theorem passes_over_unpacked :
    (∃ n ∈ openNodes unpacking.function, AssignsThroughSelf n "a" ∧ AssignsThroughSelf n "b") ∧
    unpacking.recordedBefore = [] ∧
    ∃ o, ofTree .python "/src/a.py" unpackedTree = .ok o ∧ o.classes.map (·.properties) = [[]] := by
  have hsound : unpackedTree.firstFault? = none := Option.isNone_iff_eq_none.1 (by decide +kernel)
  have hvisited : (openNodes unpacking.function)[1]? = some unpackedPair := rfl
  have hfields : (ofSoundTree .python "/src/a.py" unpackedTree).classes.map (·.properties) = [[]] := by
    decide +kernel
  refine ⟨⟨unpackedPair, List.mem_of_getElem? hvisited, ?_, ?_⟩, rfl, _, ofTree_of_sound hsound,
    hfields⟩
  · refine ⟨rfl, _, selfAttribute (Source.ofString unpackedText) 20 none 44, rfl,
      .part (by decide) List.mem_cons_self (.whole _), rfl, ?_, ?_⟩
    · decide +kernel
    · decide +kernel
  · refine ⟨rfl, _, selfAttribute (Source.ofString unpackedText) 25 none 52, rfl,
      .part (by decide) (List.mem_cons_of_mem _ List.mem_cons_self) (.whole _), rfl, ?_, ?_⟩
    · decide +kernel
    · decide +kernel

end Outline.Python

end CodeAtlas
