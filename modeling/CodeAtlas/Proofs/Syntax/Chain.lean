import CodeAtlas.Proofs.Syntax.Capture
import CodeAtlas.Syntax.Call

/-!
# Chains of names

An expression like `this.repo.find(x).items` has a spine: from the whole, one goes down to what a
member belongs to, to what is called, or into brackets and the like, until nothing of that kind is
left (`Node.Spine`). Going down, members leave their names behind; calls and wrappers leave nothing.

The loop that reads a chain goes down the spine (`Node.Spine.unwrapChain_eq`), so the chain is what the
spine says (`Node.readsSpine`). If the spine ends in a name,
the chain is that name and then the members on the way up. If it ends in something without a name,
such as a literal, there is no chain. Every expression has a spine that ends.
-/

namespace CodeAtlas.Syntax

/-! ## 1. One link -/

/-- Kinds of nodes for the member of an object. -/
def memberKinds : List String :=
  ["member_expression", "field_access", "attribute"]

/-- Kinds of nodes for the call of a function. -/
def calleeKinds : List String :=
  ["call_expression", "call"]

/-- Kinds of nodes that stand for what is inside them. -/
def wrapperKinds : List String :=
  ["parenthesized_expression", "non_null_expression", "await_expression", "await", "as_expression"]

/-- Kinds of names. -/
def nameKinds : List String :=
  ["identifier", "this", "super", "type_identifier", "property_identifier"]

/-- Kinds of qualified names. -/
def scopedKinds : List String :=
  ["scoped_identifier", "scoped_type_identifier"]

namespace Node

variable {n next : Node} {name : String} {parts : List String}

theorem unwrapChain_of_member {next : Option Node} (h : n.link = .member name next) :
    unwrapChain parts (some n) = unwrapChain (parts ++ [name]) next := by
  rw [unwrapChain]
  split <;> simp_all

theorem unwrapChain_of_same {next : Option Node} (h : n.link = .same next) :
    unwrapChain parts (some n) = unwrapChain parts next := by
  rw [unwrapChain]
  split <;> simp_all

theorem unwrapChain_of_root (h : n.link = .root name) :
    unwrapChain parts (some n) = (parts ++ [name]).reverse := by
  rw [unwrapChain]
  split <;> simp_all

theorem unwrapChain_of_nameless (h : n.link = .nameless) : unwrapChain parts (some n) = [] := by
  rw [unwrapChain]
  split <;> simp_all

theorem unwrapChain_none : unwrapChain parts none = parts.reverse := by
  rw [unwrapChain]

theorem link_of_member (h : n.kind ∈ memberKinds) : n.link = .member
    (stripPrivateMark (textOf (n.firstField? ["property", "field", "attribute"])))
    (n.field? "object") :=
  if_pos (List.contains_iff_mem.2 h)

theorem link_of_invocation (h : n.kind = "method_invocation") :
    n.link = .member (n.fieldText "name") (n.field? "object") := by
  simp [link, h]

theorem link_of_callee (h : n.kind ∈ calleeKinds) : n.link = .same (n.field? "function") := by
  rw [calleeKinds, List.mem_cons, List.mem_singleton] at h
  rcases h with h | h
  · simp [link, h]
  · simp [link, h]

theorem link_of_name (h : n.kind ∈ nameKinds) : n.link = .root n.text := by
  rw [nameKinds] at h
  simp only [List.mem_cons, List.not_mem_nil, or_false] at h
  rcases h with h | h | h | h | h <;> simp [link, h]

theorem link_of_scoped (h : n.kind ∈ scopedKinds) : n.link = .root (lastSegment n.text) := by
  rw [scopedKinds, List.mem_cons, List.mem_singleton] at h
  rcases h with h | h
  · simp [link, h]
  · simp [link, h]

theorem link_of_wrapper (h : n.kind ∈ wrapperKinds) (hinner : n.named.head? = some next) :
    n.link = .same (some next) := by
  obtain ⟨rest, hnamed⟩ := List.head?_eq_some_iff.1 hinner
  rw [wrapperKinds] at h
  simp only [List.mem_cons, List.not_mem_nil, or_false] at h
  rcases h with h | h | h | h | h <;> simp [link, h, hnamed]

/-! ## 2. Spines -/

/-- **The way down an expression**, with the names of the members on it from the bottom up. -/
inductive Spine : Node → Node → List String → Prop
  | here (n : Node) : Spine n n []
  /-- From a member to its object. -/
  | member {n object name e : Node} {accessed : List String} (hkind : n.kind ∈ memberKinds)
      (hobject : n.field? "object" = some object)
      (hname : n.firstField? ["property", "field", "attribute"] = some name)
      (h : Spine object e accessed) : Spine n e (accessed ++ [stripPrivateMark name.text])
  /-- From the invocation of a method to its object. -/
  | invocation {n object name e : Node} {accessed : List String}
      (hkind : n.kind = "method_invocation") (hobject : n.field? "object" = some object)
      (hname : n.field? "name" = some name) (h : Spine object e accessed) :
      Spine n e (accessed ++ [name.text])
  /-- From a call to its function. -/
  | callee {n function e : Node} {accessed : List String} (hkind : n.kind ∈ calleeKinds)
      (hfunction : n.field? "function" = some function) (h : Spine function e accessed) :
      Spine n e accessed
  /-- From a wrapper to the first node in it. -/
  | wrapped {n inner e : Node} {accessed : List String} (hkind : n.kind ∈ wrapperKinds)
      (hinner : n.named.head? = some inner) (h : Spine inner e accessed) : Spine n e accessed

/-- **The loop goes down the spine of an expression**, and then has passed the members on it, the last
one first. -/
theorem Spine.unwrapChain_eq {e : Node} {accessed : List String} (h : Spine n e accessed) :
    ∀ parts, unwrapChain parts (some n) = unwrapChain (parts ++ accessed.reverse) (some e) := by
  -- a member puts its name behind those that were passed before, a call or a wrapper puts nothing
  induction h with
  | here n =>
    intro parts
    rw [List.reverse_nil, List.append_nil]
  | member hkind hobject hname _ ih =>
    intro parts
    have hlink := link_of_member hkind
    rw [hobject, hname] at hlink
    rw [unwrapChain_of_member hlink, ih, List.append_assoc, List.reverse_append]
    rfl
  | invocation hkind hobject hname _ ih =>
    intro parts
    have hlink := link_of_invocation hkind
    rw [hobject, fieldText, hname] at hlink
    rw [unwrapChain_of_member hlink, ih, List.append_assoc, List.reverse_append]
    rfl
  | callee hkind hfunction _ ih =>
    intro parts
    rw [unwrapChain_of_same ((link_of_callee hkind).trans (congrArg Link.same hfunction)), ih]
  | wrapped hkind hinner _ ih =>
    intro parts
    rw [unwrapChain_of_same (link_of_wrapper hkind hinner), ih]

/-! ## 3. Ends -/

/-- **A node names the root of a chain**: it is a name, or the invocation of a method without an
object. -/
inductive NamesRoot (e : Node) : String → Prop
  | name (hkind : e.kind ∈ nameKinds) : NamesRoot e e.text
  | invocation (hkind : e.kind = "method_invocation") (hobject : e.field? "object" = none) :
      NamesRoot e (e.fieldText "name")

/-- **A node has no name**: it is neither a name nor anything that a spine goes through. A wrapper
around nothing is such a node. -/
structure IsNameless (e : Node) : Prop where
  not_name : e.kind ∉ nameKinds
  not_scoped : e.kind ∉ scopedKinds
  not_member : e.kind ∉ memberKinds
  not_invocation : e.kind ≠ "method_invocation"
  not_callee : e.kind ∉ calleeKinds
  not_wrapper : e.kind ∈ wrapperKinds → e.named.head? = none

/-- **A node lacks a part** that its grammar asks for: a member its name or its object, an invocation
on an object its name, or a call its function. -/
inductive LacksPart (e : Node) : Prop
  | member (hkind : e.kind ∈ memberKinds)
      (h : e.field? "object" = none ∨
        e.firstField? ["property", "field", "attribute"] = none)
  | invocation (hkind : e.kind = "method_invocation") (h : e.field? "name" = none)
  | callee (hkind : e.kind ∈ calleeKinds) (h : e.field? "function" = none)

/-- At a name the loop ends, and the names come in order. -/
theorem NamesRoot.unwrapChain_eq {e : Node} (h : e.NamesRoot name) (accessed : List String) :
    unwrapChain accessed.reverse (some e) = name :: accessed := by
  have hturned : (accessed.reverse ++ [name]).reverse = name :: accessed := by
    rw [List.reverse_append, List.reverse_reverse, List.reverse_singleton, List.singleton_append]
  cases h with
  | name hkind => exact (unwrapChain_of_root (link_of_name hkind)).trans hturned
  | invocation hkind hobject =>
    have hlink := (link_of_invocation hkind).trans (congrArg _ hobject)
    rw [unwrapChain_of_member hlink, unwrapChain_none, hturned]

/-- **The chain of an expression whose spine ends in a name** is that name, and then the members. -/
theorem Spine.chainOf_of_namesRoot {e : Node} {accessed : List String} (h : Spine n e accessed)
    (hroot : e.NamesRoot name) : chainOf (some n) = name :: accessed := by
  rw [chainOf, h.unwrapChain_eq, List.nil_append, hroot.unwrapChain_eq]

theorem IsNameless.link_eq {e : Node} (h : e.IsNameless) : e.link = .nameless := by
  -- each kind that has a link of its own is ruled out by one of the conditions
  unfold link
  split
  · rename_i hkind
    exact absurd (List.contains_iff_mem.1 hkind) h.not_member
  split
  · rename_i hkind
    exact absurd (beq_iff_eq.1 hkind) h.not_invocation
  split
  · rename_i hkind
    exact absurd (by simpa [calleeKinds] using hkind) h.not_callee
  split
  · rename_i hkind
    exact absurd (List.contains_iff_mem.1 hkind) h.not_name
  split
  · rename_i hkind
    exact absurd (by simpa [scopedKinds] using hkind) h.not_scoped
  split
  · rename_i hkind
    rw [List.head?_eq_none_iff.1 (h.not_wrapper (List.contains_iff_mem.1 hkind))]
  · rfl

/-- **Every expression has a spine that ends**: in a name, in something without one, or in a node that
lacks a part. -/
theorem exists_spine (n : Node) : ∃ e accessed, Spine n e accessed ∧
    ((∃ name, e.NamesRoot name) ∨ e.kind ∈ scopedKinds ∨ e.IsNameless ∨ e.LacksPart) := by
  -- every link leads to a child, but not always to the same one, so the induction is on the size
  induction hsize : sizeOf n using Nat.strongRecOn generalizing n with
  | _ size ih =>
    have hbelow : ∀ c ∈ n.children, ∃ e accessed, Spine c e accessed ∧
        ((∃ name, e.NamesRoot name) ∨ e.kind ∈ scopedKinds ∨ e.IsNameless ∨ e.LacksPart) :=
      fun c hc => ih _ (hsize ▸ sizeOf_lt_of_mem_children hc) c rfl
    by_cases hmember : n.kind ∈ memberKinds
    · cases hobject : n.field? "object" with
      | none => exact ⟨n, [], .here n, Or.inr (Or.inr (Or.inr (.member hmember (Or.inl hobject))))⟩
      | some object =>
        cases hname : n.firstField? ["property", "field", "attribute"] with
        | none => exact ⟨n, [], .here n, Or.inr (Or.inr (Or.inr (.member hmember (Or.inr hname))))⟩
        | some name =>
          obtain ⟨e, accessed, hspine, hend⟩ := hbelow object (mem_children_of_field? hobject)
          exact ⟨e, _, .member hmember hobject hname hspine, hend⟩
    by_cases hinvocation : n.kind = "method_invocation"
    · cases hobject : n.field? "object" with
      | none => exact ⟨n, [], .here n, Or.inl ⟨_, .invocation hinvocation hobject⟩⟩
      | some object =>
        cases hname : n.field? "name" with
        | none => exact ⟨n, [], .here n, Or.inr (Or.inr (Or.inr (.invocation hinvocation hname)))⟩
        | some name =>
          obtain ⟨e, accessed, hspine, hend⟩ := hbelow object (mem_children_of_field? hobject)
          exact ⟨e, _, .invocation hinvocation hobject hname hspine, hend⟩
    by_cases hcallee : n.kind ∈ calleeKinds
    · cases hfunction : n.field? "function" with
      | none => exact ⟨n, [], .here n, Or.inr (Or.inr (Or.inr (.callee hcallee hfunction)))⟩
      | some function =>
        obtain ⟨e, accessed, hspine, hend⟩ := hbelow function (mem_children_of_field? hfunction)
        exact ⟨e, _, .callee hcallee hfunction hspine, hend⟩
    by_cases hname : n.kind ∈ nameKinds
    · exact ⟨n, [], .here n, Or.inl ⟨_, .name hname⟩⟩
    by_cases hscoped : n.kind ∈ scopedKinds
    · exact ⟨n, [], .here n, Or.inr (Or.inl hscoped)⟩
    by_cases hwrapper : n.kind ∈ wrapperKinds ∧ n.named.head? ≠ none
    · obtain ⟨inner, hinner⟩ := Option.ne_none_iff_exists'.1 hwrapper.2
      obtain ⟨e, accessed, hspine, hend⟩ :=
        hbelow inner (mem_children_of_mem_named (List.mem_of_mem_head? hinner))
      exact ⟨e, _, .wrapped hwrapper.1 hinner hspine, hend⟩
    · exact ⟨n, [], .here n, Or.inr (Or.inr (Or.inl
        { not_name := hname
          not_scoped := hscoped
          not_member := hmember
          not_invocation := hinvocation
          not_callee := hcallee
          not_wrapper := fun hkind => by_contra fun hsome => hwrapper ⟨hkind, hsome⟩ }))⟩

/-! ## 4. Chains -/

/-- **The chain of an expression is what its spine says.** -/
structure ReadsSpine (n : Node) : Prop where
  /-- From a name it is that name, and then the members on the way up. -/
  of_root : ∀ e accessed name, Spine n e accessed → e.NamesRoot name →
    chainOf (some n) = name :: accessed
  of_scoped : ∀ e accessed, Spine n e accessed → e.kind ∈ scopedKinds →
    chainOf (some n) = lastSegment e.text :: accessed
  /-- From anything else there is none. -/
  of_nameless : ∀ e accessed, Spine n e accessed → e.IsNameless → chainOf (some n) = []
  /-- There is always one of these, unless a node lacks a part. -/
  ends : ∃ e accessed, Spine n e accessed ∧
    ((∃ name, e.NamesRoot name) ∨ e.kind ∈ scopedKinds ∨ e.IsNameless ∨ e.LacksPart)

/-- **Member chains unwrap to their names**, whatever calls and wrappers are in between. -/
theorem readsSpine (n : Node) : n.ReadsSpine where
  of_root _ _ _ hspine hroot := hspine.chainOf_of_namesRoot hroot
  of_scoped e accessed hspine hscoped := by
    rw [chainOf, hspine.unwrapChain_eq, unwrapChain_of_root (link_of_scoped hscoped),
      List.nil_append, List.reverse_append, List.reverse_reverse, List.reverse_singleton,
      List.singleton_append]
  of_nameless e accessed hspine hnameless := by
    rw [chainOf, hspine.unwrapChain_eq, unwrapChain_of_nameless hnameless.link_eq]
  ends := n.exists_spine

/-- A chain with brackets, a call and two other wrappers in it. -/
def itemsTree : Node :=
  let rule := (Source.ofString "(await this.#repo!.find(x)).items").rule
  let token := (Source.ofString "(await this.#repo!.find(x)).items").token
  rule 0 "member_expression" none 0 33
    [rule 1 "parenthesized_expression" (some "object") 0 27
      [token 2 "(" 0 1,
        rule 3 "await_expression" none 1 26
          [token 4 "await" 1 6,
            rule 5 "call_expression" none 7 26
              [rule 6 "member_expression" (some "function") 7 23
                [rule 7 "non_null_expression" (some "object") 7 18
                  [rule 8 "member_expression" none 7 17
                    [rule 9 "this" (some "object") 7 11 [], token 10 "." 11 12,
                      rule 11 "private_property_identifier" (some "property") 12 17 []],
                    token 12 "!" 17 18],
                  token 13 "." 18 19, rule 14 "property_identifier" (some "property") 19 23 []],
                rule 15 "arguments" (some "arguments") 23 26
                  [token 16 "(" 23 24, rule 17 "identifier" none 24 25 [], token 18 ")" 25 26]]],
        token 19 ")" 26 27],
      token 20 "." 27 28, rule 21 "property_identifier" (some "property") 28 33 []]

/-- A chain that starts at an array. -/
def lengthTree : Node :=
  let rule := (Source.ofString "[x].map(f).length").rule
  let token := (Source.ofString "[x].map(f).length").token
  rule 0 "member_expression" none 0 17
    [rule 1 "call_expression" (some "object") 0 10
      [rule 2 "member_expression" (some "function") 0 7
        [rule 3 "array" (some "object") 0 3
          [token 4 "[" 0 1, rule 5 "identifier" none 1 2 [], token 6 "]" 2 3],
          token 7 "." 3 4, rule 8 "property_identifier" (some "property") 4 7 []],
        rule 9 "arguments" (some "arguments") 7 10
          [token 10 "(" 7 8, rule 11 "identifier" none 8 9 [], token 12 ")" 9 10]],
      token 13 "." 10 11, rule 14 "property_identifier" (some "property") 11 17 []]

/-- The spine of one ends in a name, that of the other in an array. -/
theorem readsSpine_itemsTree : chainOf (some itemsTree) = ["this", "repo", "find", "items"] ∧
    chainOf (some lengthTree) = [] := by
  constructor
  · have hspine : Spine itemsTree _ _ :=
      .member (by decide +kernel) rfl rfl <| .wrapped (by decide +kernel) rfl <|
      .wrapped (by decide +kernel) rfl <| .callee (by decide +kernel) rfl <|
      .member (by decide +kernel) rfl rfl <| .wrapped (by decide +kernel) rfl <|
      .member (by decide +kernel) rfl rfl <| .here _
    rw [itemsTree.readsSpine.of_root _ _ _ hspine (.name (by decide +kernel))]
    decide +kernel
  · have hspine : Spine lengthTree _ _ :=
      .member (by decide +kernel) rfl rfl <| .callee (by decide +kernel) rfl <|
      .member (by decide +kernel) rfl rfl <| .here _
    exact lengthTree.readsSpine.of_nameless _ _ hspine
      { not_name := by decide +kernel
        not_scoped := by decide +kernel
        not_member := by decide +kernel
        not_invocation := by decide +kernel
        not_callee := by decide +kernel
        not_wrapper := by decide +kernel }

end Node

end CodeAtlas.Syntax
