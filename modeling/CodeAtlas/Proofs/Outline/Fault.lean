import CodeAtlas.Proofs.Outline.Assembly
import CodeAtlas.Proofs.Syntax.Capture
import CodeAtlas.Proofs.Syntax.Span

/-!
# The first fault of a tree

The search for a fault goes through a stack of trees and enters only those that are marked as holding
one. Where every node is marked truly, nothing is lost by that: what the search finds is the first
fault among all nodes that the stack stands for (`Syntax.faultStack?_eq_find?`). So a file is refused
just if its tree holds a fault, for the first one, and read otherwise (`Outline.refuses_ofTree`).
-/

namespace CodeAtlas

open Syntax

namespace Syntax

/-! ## 1. All nodes of a tree -/

/-- **The nodes of a tree in preorder.** -/
def Node.preorder (root : Node) : List Node :=
  root.sites.map Site.node

namespace Node

theorem mem_preorder {root n : Node} : n ∈ root.preorder ↔ ∃ site ∈ root.sites, site.node = n :=
  List.mem_map

mutual

/-- What stands above a node makes no difference to the nodes below it. -/
theorem map_node_sitesBelow :
    ∀ (above : List Node) (n : Node), (n.sitesBelow above).map Site.node = n.preorder
  | above, node label children => by
    rw [preorder, sites, sitesBelow, sitesBelow, List.map_cons, List.map_cons,
      map_node_sitesOf, map_node_sitesOf]

theorem map_node_sitesOf :
    ∀ (above ns : List Node), (sitesOf above ns).map Site.node = ns.flatMap preorder
  | _, [] => rfl
  | above, n :: ns => by
    rw [sitesOf, List.map_append, map_node_sitesBelow above n, map_node_sitesOf above ns,
      List.flatMap_cons]

end

/-- A node comes before its descendants, and these child by child. -/
theorem preorder_eq (n : Node) : n.preorder = n :: n.children.flatMap preorder := by
  cases n with
  | node label children =>
    rw [preorder, sites, sitesBelow, List.map_cons, map_node_sitesOf]
    rfl

theorem self_mem_preorder (n : Node) : n ∈ n.preorder := by
  rw [preorder_eq]
  exact List.mem_cons_self

/-- What is below a child is below the node. -/
theorem mem_preorder_of_mem_children {n c m : Node} (hc : c ∈ n.children) (hm : m ∈ c.preorder) :
    m ∈ n.preorder := by
  rw [preorder_eq]
  exact List.mem_cons_of_mem n (List.mem_flatMap.2 ⟨c, hc, hm⟩)

/-! ## 2. Faults -/

/-- **Every node of a tree is marked truly**: as holding a fault just if it is one or has one
below. -/
def MarksFaults (root : Node) : Prop :=
  ∀ n ∈ root.preorder, n.label.hasError = true ↔ ∃ fault ∈ n.preorder, fault.isFault = true

instance (root : Node) : Decidable root.MarksFaults :=
  inferInstanceAs (Decidable (∀ n ∈ root.preorder, _))

theorem MarksFaults.of_mem_children {n c : Node} (h : n.MarksFaults) (hc : c ∈ n.children) :
    c.MarksFaults :=
  fun m hm => h m (mem_preorder_of_mem_children hc hm)

/-- There is no fault below a node that is not marked. -/
theorem MarksFaults.find?_eq_none {n : Node} (h : n.MarksFaults)
    (hmark : ¬ n.label.hasError = true) : n.preorder.find? isFault = none := by
  rw [List.find?_eq_none]
  intro m hm hfault
  exact hmark ((h n n.self_mem_preorder).2 ⟨m, hm, hfault⟩)

end Node

/-! ## 3. The search -/

/-- The nodes that a stack stands for: those of its trees in preorder, the last tree first. -/
def pending (stack : Array Node) : List Node :=
  stack.toList.reverse.flatMap Node.preorder

theorem pending_push (stack : Array Node) (n : Node) :
    pending (stack.push n) = n.preorder ++ pending stack := by
  rw [pending, Array.toList_push, List.reverse_append, List.reverse_singleton,
    List.singleton_append, List.flatMap_cons, pending]

theorem pending_append_reverse (stack : Array Node) (ns : List Node) :
    pending (stack ++ ns.reverse) = ns.flatMap Node.preorder ++ pending stack := by
  rw [pending, Array.toList_appendList, List.reverse_append, List.reverse_reverse,
    List.flatMap_append, pending]

/-- What the search finds is a fault of one of the trees. -/
theorem of_faultStack? {stack : Array Node} {fault : Node} (h : faultStack? stack = some fault) :
    fault ∈ pending stack ∧ fault.isFault = true := by
  fun_induction faultStack? stack with
  | case1 => cases h
  | case2 stack current hcurrent hfault =>
    obtain ⟨rest, rfl⟩ := Array.back?_eq_some_iff.1 hcurrent
    cases h
    rw [pending_push]
    exact ⟨List.mem_append_left _ fault.self_mem_preorder, hfault⟩
  | case3 stack current hcurrent hfault ih =>
    obtain ⟨rest, rfl⟩ := Array.back?_eq_some_iff.1 hcurrent
    rw [Array.pop_push, dite_eq_ite] at ih
    rw [Array.pop_push] at h
    obtain ⟨hmem, hfound⟩ := ih h
    refine ⟨?_, hfound⟩
    rw [pending_push, List.mem_append, Node.preorder_eq]
    by_cases hmark : current.label.hasError = true
    · rw [if_pos hmark, pending_append_reverse, List.mem_append] at hmem
      exact hmem.imp_left (List.mem_cons_of_mem current)
    · rw [if_neg hmark] at hmem
      exact Or.inr hmem

/-- **The search finds the first fault in preorder**, where all nodes are marked truly. -/
theorem faultStack?_eq_find? {stack : Array Node} (h : ∀ n ∈ stack, n.MarksFaults) :
    faultStack? stack = (pending stack).find? Node.isFault := by
  fun_induction faultStack? stack with
  | case1 stack hnone =>
    rw [Array.back?_eq_none_iff.1 hnone]
    rfl
  | case2 stack current hcurrent hfault =>
    obtain ⟨rest, rfl⟩ := Array.back?_eq_some_iff.1 hcurrent
    rw [pending_push, Node.preorder_eq, List.cons_append, List.find?_cons_of_pos hfault]
  | case3 stack current hcurrent hfault ih =>
    obtain ⟨rest, rfl⟩ := Array.back?_eq_some_iff.1 hcurrent
    have hn : current.MarksFaults := h current (Array.mem_push_self)
    have hrest : ∀ m ∈ rest, m.MarksFaults := fun m hm => h m (Array.mem_push_of_mem current hm)
    rw [Array.pop_push, dite_eq_ite] at ih
    rw [Array.pop_push, pending_push]
    by_cases hmark : current.label.hasError = true
    · rw [if_pos hmark] at ih ⊢
      have hnext : ∀ m ∈ rest ++ current.children.reverse, m.MarksFaults := by
        intro m hm
        rw [← Array.mem_toList_iff, Array.toList_appendList, List.mem_append, List.mem_reverse,
          Array.mem_toList_iff] at hm
        exact hm.elim (hrest m) hn.of_mem_children
      rw [ih hnext, pending_append_reverse, Node.preorder_eq current, List.cons_append,
        List.find?_cons_of_neg hfault]
    -- the nodes below one that is not marked can be passed over
    · rw [if_neg hmark] at ih ⊢
      rw [ih hrest, List.find?_append, hn.find?_eq_none hmark, Option.none_or]

namespace Node

variable {root : Node}

theorem pending_singleton : pending #[root] = root.preorder :=
  List.flatMap_singleton _ _

theorem firstFault?_eq_find? (h : root.MarksFaults) :
    root.firstFault? = root.preorder.find? isFault := by
  have hroot : ∀ n ∈ #[root], n.MarksFaults := fun n hn => Array.mem_singleton.1 hn ▸ h
  rw [firstFault?, faultStack?_eq_find? hroot, pending_singleton]

/-- A tree in which no node is a fault is sound, however its nodes are marked. -/
theorem firstFault?_eq_none (h : ∀ n ∈ root.preorder, n.isFault = false) :
    root.firstFault? = none := by
  rw [Option.eq_none_iff_forall_ne_some]
  intro fault hfound
  obtain ⟨hmem, hfault⟩ := of_faultStack? hfound
  rw [pending_singleton] at hmem
  exact Bool.false_ne_true ((h fault hmem).symm.trans hfault)

end Node

end Syntax

/-! ## 4. Files -/

namespace Outline

/-- What is wrong at a fault, in words. -/
def faultDetail (fault : Node) : String :=
  if fault.label.isMissing then "missing token" else "unexpected syntax"

variable {language : Language} {path : String} {root : Node}

/-- **A file is refused just if its tree holds a fault**, and then for the first one in preorder: with
its line, and as a missing token or as unexpected syntax. Else it is read. -/
theorem refuses_ofTree (h : root.MarksFaults) :
    ((∃ e, ofTree language path root = .error e) ↔ ∃ n ∈ root.preorder, n.isFault = true) ∧
    (∀ before fault after, root.preorder = before ++ fault :: after →
      (∀ n ∈ before, n.isFault = false) → fault.isFault = true →
      ∃ e, ofTree language path root = .error e ∧
        e = .syntaxError path fault.line fault.label.isMissing ∧
        e.message = s!"Failed to parse {path}:{fault.line}: {faultDetail fault}") ∧
    ((∀ n ∈ root.preorder, n.isFault = false) →
      ofTree language path root = .ok (ofSoundTree language path root)) := by
  have hfirst : root.firstFault? = root.preorder.find? Node.isFault := Node.firstFault?_eq_find? h
  refine ⟨?_, ?_, ?_⟩
  · rw [← List.find?_isSome (p := Node.isFault), ← hfirst, ofTree]
    cases root.firstFault? with
    | some fault => exact iff_of_true ⟨_, rfl⟩ rfl
    | none =>
      refine iff_of_false ?_ Bool.false_ne_true
      rintro ⟨e, he⟩
      cases he
  · intro before fault after hsplit hbefore hfault
    have hfound : root.firstFault? = some fault := by
      rw [hfirst, List.find?_eq_some_iff_append]
      refine ⟨hfault, before, after, hsplit, fun n hn => ?_⟩
      rw [hbefore n hn]
      rfl
    refine ⟨.syntaxError path fault.line fault.label.isMissing, ?_, rfl, rfl⟩
    rw [ofTree, hfound]
  · exact fun hnone => ofTree_of_sound (Node.firstFault?_eq_none hnone)

/-- A call whose parenthesis is not closed, and a bracket that nothing opens. -/
def unclosedText : String :=
  "a\nf(b\n]\n"

/-- The parenthesis that `unclosedText` lacks. -/
def missingParenthesis : Node :=
  (Source.ofString unclosedText).node 9 ")" none false false true true 5 5 []

/-- The tree of `unclosedText`. -/
def unclosedTree : Node :=
  let rule := (Source.ofString unclosedText).rule
  let token := (Source.ofString unclosedText).token
  let marked (id : Nat) (kind : String) (field : Option String) (isError : Bool)
      (start stop : Nat) (children : List Node) : Node :=
    (Source.ofString unclosedText).node id kind field true isError false true start stop children
  marked 0 "program" none false 0 8
    [rule 1 "expression_statement" none 0 1 [rule 2 "identifier" none 0 1 []],
      marked 3 "expression_statement" none false 2 5
        [marked 4 "call_expression" none false 2 5
          [rule 5 "identifier" (some "function") 2 3 [],
            marked 6 "arguments" (some "arguments") false 3 5
              [token 7 "(" 3 4, rule 8 "identifier" none 4 5 [], missingParenthesis]]],
      marked 10 "ERROR" none true 6 7 [token 11 "]" 6 7]]

/-- The missing parenthesis is reported, which lies deeper in the tree than the bracket after it. -/
theorem refuses_unclosedTree :
    unclosedTree.MarksFaults ∧
    ∃ e, ofTree .typescript "/src/a.ts" unclosedTree = .error e ∧
      e.message = "Failed to parse /src/a.ts:2: missing token" := by
  have hmarks : unclosedTree.MarksFaults := by decide +kernel
  have hsplit : unclosedTree.preorder
      = unclosedTree.preorder.take 9 ++ missingParenthesis :: unclosedTree.preorder.drop 10 := rfl
  have hbefore : ∀ n ∈ unclosedTree.preorder.take 9, n.isFault = false := by decide +kernel
  have hfault : missingParenthesis.isFault = true := rfl
  obtain ⟨e, herror, -, hmessage⟩ :=
    (@refuses_ofTree .typescript "/src/a.ts" unclosedTree hmarks).2.1 _ _ _ hsplit
      hbefore hfault
  refine ⟨hmarks, e, herror, hmessage.trans ?_⟩
  decide +kernel

end Outline

end CodeAtlas
