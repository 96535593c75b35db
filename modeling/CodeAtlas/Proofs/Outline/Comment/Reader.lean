import CodeAtlas.Outline.OfTree
import CodeAtlas.Proofs.Syntax.Comment
import CodeAtlas.Proofs.Syntax.Walk

/-!
# Reading past comments

What the readers of all languages have in common where comments are concerned. A reader that takes
the first child or all of them comes upon the comments there; one that takes a value for the type it
shows may come upon a comment inside (`Node.hidesElement`). Declarations are put together from lists
of nodes, in which comments declare nothing.
-/

namespace CodeAtlas

namespace Syntax.Node

/-! ## 1. Comments in the way -/

/-- Whether a comment is the first of the named children. -/
def opensWithComment (n : Node) : Bool :=
  n.named.head?.any isComment

/-- Whether a comment is among the children. -/
def holdsComment (n : Node) : Bool :=
  n.named.any isComment

/-- The first of the named children that is no comment. -/
def firstElement? (n : Node) : Option Node :=
  n.named.find? fun c => !c.isComment

theorem mem_children_of_firstElement? {n c : Node} (h : n.firstElement? = some c) :
    c ∈ n.children :=
  mem_children_of_mem_named (List.mem_of_find?_eq_some h)

theorem mem_fields_of_field? {n c : Node} {name : String} (h : n.field? name = some c) :
    c ∈ n.fields name :=
  List.mem_filter.2 ⟨mem_children_of_field? h, List.find?_some (p := fun c : Node =>
    c.label.field == some name) h⟩

/-- **The first of the named children without comments.** -/
theorem head?_named_withoutComments (n : Node) :
    n.withoutComments.named.head? = n.firstElement?.map withoutComments := by
  rw [named_withoutComments, head?_withoutCommentsOf, firstElement?]

theorem firstElement?_eq_head? {n : Node} (h : n.opensWithComment = false) :
    n.firstElement? = n.named.head? :=
  find?_not_isComment h

/-- A reader that reads nothing from comments, and nothing from a child that has one in front, can take
the first of the children. -/
theorem bind_firstElement? {β : Type} {read : Node → Option β} {n : Node}
    (hcomment : ∀ c, c.isComment = true → read c = none)
    (hhidden : n.opensWithComment = true → ∀ c, n.firstElement? = some c → read c = none) :
    n.firstElement?.bind read = n.named.head?.bind read := by
  by_cases hopens : n.opensWithComment = true
  -- the first child is a comment and the first element is hidden by it: both give nothing
  · obtain ⟨comment, hhead, hnamed⟩ := (Option.any_eq_true _ _).1 hopens
    rw [hhead, Option.bind_some, hcomment comment hnamed, Option.bind_eq_none_iff]
    exact hhidden hopens
  · rw [firstElement?_eq_head? (Bool.eq_false_iff.2 hopens)]

/-- **What is read from the first of the named children** is the same without comments. -/
theorem bind_head?_withoutComments {β : Type} {read : Node → Option β} {n : Node}
    (hcomment : ∀ c, c.isComment = true → read c = none)
    (hsame : ∀ c, n.firstElement? = some c → read c.withoutComments = read c)
    (hhidden : n.opensWithComment = true → ∀ c, n.firstElement? = some c → read c = none) :
    n.withoutComments.named.head?.bind read = n.named.head?.bind read := by
  rw [head?_named_withoutComments, Option.bind_map, ← bind_firstElement? hcomment hhidden]
  exact Option.bind_congr hsame

/-- Whether the first element of a list shows something and has a comment in front. Of a list of
lists this is asked of the first one, and of a comprehension of what it makes its elements. -/
def hidesElement (listKind : String) (shows : Node → Bool) (value : Node) : Bool :=
  if value.kind == listKind then
    match _h : value.firstElement? with
    | some element =>
      (value.opensWithComment && shows element) || hidesElement listKind shows element
    | none => false
  else if value.kind == "list_comprehension" then
    match _h : value.field? "body" with
    | some body => hidesElement listKind shows body
    | none => false
  else false
termination_by value
decreasing_by
  · exact sizeOf_lt_of_mem_children (mem_children_of_firstElement? _h)
  · exact sizeOf_lt_of_mem_children (mem_children_of_field? _h)

/-- How a reader infers the types of values: that of a list from its first element, and none from a
comment. That of any other value is the same without comments, if the body of a comprehension gives
the same. -/
structure InfersElements (infer : Node → Option String) (listKind : String) (shows : Node → Bool)
    (wrap : String → Option String) : Prop where
  comment : ∀ value, value.isComment = true → infer value = none
  list : ∀ value, (value.kind == listKind) = true →
    infer value = value.named.head?.bind fun element => (infer element).bind wrap
  hidden : ∀ element, shows element = false → (infer element).bind wrap = none
  rest : ∀ value, ¬ (value.kind == listKind) = true →
    ((value.kind == "list_comprehension") = true → ∀ body, value.field? "body" = some body →
      infer body.withoutComments = infer body) →
    infer value.withoutComments = infer value

section InfersElements

variable {infer : Node → Option String} {listKind : String} {shows : Node → Bool}
  {wrap : String → Option String}

/-- A list shows the same type if its first element does, and shows none where a comment is in front
of it. -/
theorem InfersElements.list_withoutComments (h : InfersElements infer listKind shows wrap)
    {value : Node} (hkind : (value.kind == listKind) = true)
    (helement : ∀ element, value.firstElement? = some element →
      infer element.withoutComments = infer element ∧
        (value.opensWithComment = true → shows element = false)) :
    infer value.withoutComments = infer value := by
  rw [h.list value hkind, h.list _ ((kind_withoutComments value).symm ▸ hkind)]
  refine bind_head?_withoutComments (fun c hc => ?_) (fun c hc => ?_) fun hopens c hc => ?_
  · rw [h.comment c hc, Option.bind_none]
  · rw [(helement c hc).1]
  · exact h.hidden c ((helement c hc).2 hopens)

/-- **A value that hides no element shows the same type** without comments. -/
theorem InfersElements.withoutComments (h : InfersElements infer listKind shows wrap)
    (value : Node) : hidesElement listKind shows value = false →
      infer value.withoutComments = infer value := by
  -- down the first elements of lists, and what comprehensions make their elements
  induction value using hidesElement.induct listKind with
  | case1 value hkind element helement ih =>
    intro hhides
    rw [hidesElement, if_pos hkind, helement, Bool.or_eq_false_iff] at hhides
    refine h.list_withoutComments hkind fun e he => ?_
    cases helement.symm.trans he
    refine ⟨ih hhides.2, fun hopens => ?_⟩
    rw [← hhides.1, hopens, Bool.true_and]
  | case2 value hkind hnone =>
    refine fun _ => h.list_withoutComments hkind fun e he => ?_
    rw [hnone] at he
    cases he
  | case3 value hkind hcomprehension body hbody ih =>
    intro hhides
    rw [hidesElement, if_neg hkind, if_pos hcomprehension, hbody] at hhides
    refine h.rest value hkind fun _ b hb => ?_
    cases hbody.symm.trans hb
    exact ih hhides
  | case4 value hkind hcomprehension hnone =>
    refine fun _ => h.rest value hkind fun _ b hb => ?_
    rw [hnone] at hb
    cases hb
  | case5 value hkind hcomprehension =>
    exact fun _ => h.rest value hkind fun hyes => absurd hyes hcomprehension

end InfersElements

end Syntax.Node

/-! ## 2. Lists of nodes -/

namespace Syntax.Node

section Listed

variable {β : Type} {read : Node → Option β} {p : Node → Bool} {n : Node}

/-- **What is read from the named children**, each on its own, is the same without comments. -/
theorem filterMap_named_withoutComments (hcomment : ∀ c : Node, c.isComment = true → read c = none)
    (hread : ∀ c : Node, c.everywhere p = true → read c.withoutComments = read c)
    (h : n.everywhere p = true) :
    n.withoutComments.named.filterMap read = n.named.filterMap read := by
  rw [named_withoutComments]
  exact filterMap_withoutCommentsOf hcomment fun c hc => hread c (everywhere_of_named h hc)

/-- So it is for the list that a field holds. -/
theorem listed_field?_withoutComments {listed : Option Node → List β} {name : String}
    (hnone : listed none = [])
    (hsome : ∀ list : Node, listed (some list) = list.named.filterMap read)
    (hcomment : ∀ c : Node, c.isComment = true → read c = none)
    (hread : ∀ c : Node, c.everywhere p = true → read c.withoutComments = read c)
    (h : n.everywhere p = true) :
    listed (n.withoutComments.field? name) = listed (n.field? name) := by
  rw [field?_withoutComments]
  cases hlist : n.field? name with
  | none => rw [Option.map_none, hnone]
  | some list =>
    rw [Option.map_some, hsome, hsome]
    exact filterMap_named_withoutComments hcomment hread (everywhere_of_field? h hlist)

end Listed

end Syntax.Node

namespace Declared

theorem append_empty (d : Declared) : append d {} = d := by
  cases d
  rw [append, List.append_nil, List.append_nil, List.append_nil, List.append_nil]

/-- Nodes that declare nothing can be left out of a list. -/
theorem concat_withoutCommentsOf {f : Syntax.Node → Declared} {ns : List Syntax.Node}
    (hcomment : ∀ n, n.isComment = true → f n = {})
    (h : ∀ n ∈ ns, f n.withoutComments = f n) :
    concat ((Syntax.Node.withoutCommentsOf ns).map f) = concat (ns.map f) := by
  rw [concat, concat, List.foldl_map, List.foldl_map]
  refine Syntax.foldl_withoutCommentsOf (fun d n hn => ?_) (fun d n hn => ?_) ({} : Declared)
  · rw [hcomment n hn, append_empty]
  · rw [h n hn]

/-- What the statements of a file declare. -/
theorem concat_named_withoutComments {f : Syntax.Node → Declared} {p : Syntax.Node → Bool}
    {root : Syntax.Node} (hcomment : ∀ n, n.isComment = true → f n = {})
    (hread : ∀ n : Syntax.Node, n.everywhere p = true → f n.withoutComments = f n)
    (h : root.everywhere p = true) :
    concat (root.withoutComments.named.map f) = concat (root.named.map f) := by
  rw [Syntax.Node.named_withoutComments]
  exact concat_withoutCommentsOf hcomment fun n hn =>
    hread n (Syntax.Node.everywhere_of_named h hn)

end Declared

end CodeAtlas
